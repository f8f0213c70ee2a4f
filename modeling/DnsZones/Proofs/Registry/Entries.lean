import DnsZones.Proofs.Table
import DnsZones.Registry

/-!
# Registrations

What a registry holds after a plugin was registered.

A registration replaces what its type had and leaves every other type alone, and that is
all that a later lookup sees of it: a plugin that is registered for a list of types has
each type in the list, also if one comes twice, and no other.

## Theorems

* `Registry.entry?_register`: One registration.
* `Registry.entry?_registerAll`: A plugin for a list of types.
* `Registry.entry?_adopt`, `Registry.nextIdentity_adopt`: A new plugin.
-/

namespace DnsZones

namespace Registry

variable {σ : Type}

theorem entry?_register (registry : Registry σ) (type : RecordType) (entry : Registered σ)
    (other : RecordType) :
    entry? (registry.register type entry).1 other
      = if other = type then some entry else registry.entry? other := by
  unfold entry? register
  by_cases h : other = type
  · rw [if_pos h, h, Table.get?_insert_self]
  · rw [if_neg h, Table.get?_insert_of_ne _ _ h]

theorem registerAll_cons (registry : Registry σ) (entry : Registered σ) (type : RecordType)
    (types : List RecordType) :
    (registry.registerAll entry (type :: types)).1
      = ((registry.register type entry).1.registerAll entry types).1 := rfl

/-- The plugin has every type in the list, and every other type what it had. -/
theorem entry?_registerAll (registry : Registry σ) (entry : Registered σ)
    (types : List RecordType) (type : RecordType) :
    entry? (registry.registerAll entry types).1 type
      = if type ∈ types then some entry else registry.entry? type := by
  induction types generalizing registry with
  | nil => rw [if_neg List.not_mem_nil]; rfl
  | cons first types ih =>
      rw [registerAll_cons, ih, entry?_register]
      by_cases hmem : type ∈ types
      · rw [if_pos hmem, if_pos (List.mem_cons_of_mem _ hmem)]
      · by_cases hfirst : type = first
        · rw [if_neg hmem, if_pos hfirst, if_pos (hfirst ▸ List.mem_cons_self)]
        · rw [if_neg hmem, if_neg hfirst,
            if_neg fun h => (List.mem_cons.mp h).elim hfirst hmem]

theorem nextIdentity_registerAll (registry : Registry σ) (entry : Registered σ)
    (types : List RecordType) :
    (registry.registerAll entry types).1.nextIdentity = registry.nextIdentity := by
  induction types generalizing registry with
  | nil => rfl
  | cons type types ih => exact ih _

theorem entry?_adopt (registry : Registry σ) (metadata : Metadata) (plugin : Plugin σ)
    (types : List RecordType) (type : RecordType) :
    entry? (registry.adopt metadata plugin types).1 type
      = if type ∈ types then some ⟨metadata, registry.nextIdentity, plugin⟩
        else registry.entry? type :=
  entry?_registerAll _ _ _ _

theorem nextIdentity_adopt (registry : Registry σ) (metadata : Metadata) (plugin : Plugin σ)
    (types : List RecordType) :
    (registry.adopt metadata plugin types).1.nextIdentity = registry.nextIdentity + 1 :=
  nextIdentity_registerAll _ _ _

end Registry

end DnsZones
