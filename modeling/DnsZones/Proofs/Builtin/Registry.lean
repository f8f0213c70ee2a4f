import DnsZones.Generation
import DnsZones.Plugin.Builtin
import DnsZones.Proofs.Table

/-!
# The Builtin Registry

What the registry with the builtin plugins, and no others, holds.

Every plugin is registered for exactly one type, so the registry comes down to
five entries. A lookup that succeeds therefore tells both the type and the
plugin, and running all plugins runs these five. Everything else that is proved
about the builtin plugins takes the registry apart here and nowhere else.

The engine takes its working directory from the host it starts on, which is how a
run of the program builds it.

## Main definitions

* `Builtin.registry`: The registry.
* `Builtin.engine`: An engine over it.

## Theorems

* `Builtin.lookup_cases`: A type that is found is one of five.
* `Builtin.plugins_registry`: Every plugin once.
-/

namespace DnsZones

namespace Builtin

/-- The registry with the builtin plugins and no others. -/
def registry (timeout : Duration) : Registry Host := (Registry.adoptEach {} (plugins timeout)).1

/-- An engine with the builtin plugins, started on a host. -/
def engine (timeout : Duration) (defaults : Option Config) (host : Host) : Engine Host where
  registry := registry timeout
  defaults := defaults
  workingDirectory := host.store.workingPath

/-- How a builtin plugin is registered. -/
def entry (identity : Nat) (name : String) (plugin : Plugin Host) : Registered Host :=
  ⟨.ofBuiltin name, identity, plugin⟩

/-- The entries of the registry, in the order in which they come in. -/
theorem entries_registry (timeout : Duration) :
    (registry timeout).entries
      = ((((Table.empty.insert .a (entry 0 "a" address)).insert
          .ns (entry 1 "ns" nameServer)).insert
          .cname (entry 2 "cname" canonicalName)).insert
          .ptr (entry 3 "ptr" pointer)).insert
          .soa (entry 4 "soa" (authority timeout)) := rfl

/-- Every plugin once, ordered by its type. -/
theorem plugins_registry (timeout : Duration) :
    (registry timeout).plugins
      = [entry 0 "a" address, entry 2 "cname" canonicalName, entry 1 "ns" nameServer,
          entry 3 "ptr" pointer, entry 4 "soa" (authority timeout)] := rfl

/-- A type that is found is one of five, and its plugin the one for it. -/
theorem lookup_cases {timeout : Duration} {type : RecordType} {plugin : Plugin Host}
    (h : (registry timeout).lookup type = some plugin) :
    (type = .a ∧ plugin = address) ∨ (type = .ns ∧ plugin = nameServer)
      ∨ (type = .cname ∧ plugin = canonicalName) ∨ (type = .ptr ∧ plugin = pointer)
      ∨ (type = .soa ∧ plugin = authority timeout) := by
  simp only [Registry.lookup, Registry.entry?, Option.map_eq_some_iff, entries_registry,
    Table.get?_insert, Table.cmp_eq_iff] at h
  rcases h with ⟨found, he, rfl⟩
  -- The entry that came in last is looked at first.
  by_cases hsoa : type = .soa
  · rw [if_pos hsoa] at he
    cases he
    exact Or.inr (Or.inr (Or.inr (Or.inr ⟨hsoa, rfl⟩)))
  rw [if_neg hsoa] at he
  by_cases hptr : type = .ptr
  · rw [if_pos hptr] at he
    cases he
    exact Or.inr (Or.inr (Or.inr (Or.inl ⟨hptr, rfl⟩)))
  rw [if_neg hptr] at he
  by_cases hcname : type = .cname
  · rw [if_pos hcname] at he
    cases he
    exact Or.inr (Or.inr (Or.inl ⟨hcname, rfl⟩))
  rw [if_neg hcname] at he
  by_cases hns : type = .ns
  · rw [if_pos hns] at he
    cases he
    exact Or.inr (Or.inl ⟨hns, rfl⟩)
  rw [if_neg hns] at he
  by_cases ha : type = .a
  · rw [if_pos ha] at he
    cases he
    exact Or.inl ⟨ha, rfl⟩
  · rw [if_neg ha] at he
    cases he

end Builtin

end DnsZones
