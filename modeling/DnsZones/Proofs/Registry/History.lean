import DnsZones.Proofs.Calls
import DnsZones.Proofs.Registry.Entries
import DnsZones.Registry.Discovery

/-!
# Registries and Their Histories

What a registry holds, whatever was registered before.

A registry is made by registering plugins, and plugins replace one another: one may be
registered for several types at once, lose some of them to other plugins, and get more
later on, under another name perhaps. The registry keeps only the last plugin for each
type. So the types by themselves are easily accounted for. The list of all plugins is
not, because it is made from the types in order and passes over a plugin that it has
seen. Which place a plugin has depends on the smallest type that is left to it, and
that may be a type that it got last.

What tells plugins apart is the identity that each gets when it first comes in. No
plugin that came in before has it, so an identity stands for one plugin throughout a
history.

## Main definitions

* `Registry.HasHistory`: The registrations that led to a registry.
* `Registry.latest?`: The last registration for a type.
* `Registry.IsCurrent`: A plugin has some type.
* `Registry.IsFirst`: A type is the smallest that its plugin has.
* `Registry.IsKept`: What is kept of a list in which plugins come twice.

## Theorems

* `Registry.HasHistory.entry?_eq`: A type has what was last registered for it.
* `Registry.HasHistory.identity_lt`, `Registry.HasHistory.plugin_eq`: An identity stands for one
  plugin.
* `Registry.exists_distinct`: Of each plugin the entry with the smallest type is kept.
* `Registry.follows_history`: Types and plugins of a registry, from its history.
* `Discovery.exists_hasHistory_load`: The registry of a run has a history.
-/

namespace DnsZones

namespace Registry

variable {σ : Type} {registry : Registry σ} {history : List (RecordType × Registered σ)}

/-- The registrations that led to a registry, in order. -/
inductive HasHistory : Registry σ → List (RecordType × Registered σ) → Prop
  | empty : HasHistory {} []
  /-- A plugin comes in and is registered for some types. -/
  | adopt {registry : Registry σ} {history : List (RecordType × Registered σ)}
      (h : HasHistory registry history) (metadata : Metadata) (plugin : Plugin σ)
      (types : List RecordType) :
      HasHistory (registry.adopt metadata plugin types).1
        (history ++ types.map fun type => (type, ⟨metadata, registry.nextIdentity, plugin⟩))
  /-- A plugin that was registered before is registered once more, perhaps under another name. -/
  | register {registry : Registry σ} {history : List (RecordType × Registered σ)}
      (h : HasHistory registry history) {before : RecordType × Registered σ}
      (hbefore : before ∈ history) (metadata : Metadata) (type : RecordType) :
      HasHistory (registry.register type { before.2 with metadata := metadata }).1
        (history ++ [(type, { before.2 with metadata := metadata })])

/-- What was last registered for a type. -/
def latest? (history : List (RecordType × Registered σ)) (type : RecordType) :
    Option (Registered σ) :=
  (history.reverse.find? fun e => e.1 = type).map (·.2)

/-- A plugin is the last one registered for some type. -/
def IsCurrent (history : List (RecordType × Registered σ)) (identity : Nat) : Prop :=
  ∃ type entry, latest? history type = some entry ∧ entry.identity = identity

/-- A type is the smallest of those for which its plugin is the last one registered. -/
def IsFirst (history : List (RecordType × Registered σ)) (type : RecordType) : Prop :=
  ∃ entry, latest? history type = some entry
    ∧ ∀ other found, latest? history other = some found → found.identity = entry.identity →
      KeyOrder.cmp other type ≠ .lt

/-! ### Types -/

/-- Later registrations are looked at first. -/
theorem latest?_append (history more : List (RecordType × Registered σ)) (type : RecordType) :
    latest? (history ++ more) type = (latest? more type).or (latest? history type) := by
  unfold latest?
  rw [List.reverse_append, List.find?_append, Option.map_or]

theorem latest?_single (first type : RecordType) (entry : Registered σ) :
    latest? [(first, entry)] type = if type = first then some entry else none := by
  unfold latest?
  by_cases h : type = first
  · rw [if_pos h, h]
    simp
  · rw [if_neg h]
    simp [Ne.symm h]

theorem latest?_map (types : List RecordType) (entry : Registered σ) (type : RecordType) :
    latest? (types.map fun type => (type, entry)) type
      = if type ∈ types then some entry else none := by
  induction types with
  | nil => rfl
  | cons first types ih =>
      rw [List.map_cons, ← List.singleton_append, latest?_append, ih, latest?_single]
      by_cases hmem : type ∈ types
      · rw [if_pos hmem, if_pos (List.mem_cons_of_mem _ hmem), Option.some_or]
      · rw [if_neg hmem, Option.none_or]
        by_cases hfirst : type = first
        · rw [if_pos hfirst, if_pos (hfirst ▸ List.mem_cons_self)]
        · rw [if_neg hfirst, if_neg fun h => (List.mem_cons.mp h).elim hfirst hmem]

/-- A type has what was last registered for it. -/
theorem HasHistory.entry?_eq (h : HasHistory registry history) (type : RecordType) :
    registry.entry? type = latest? history type := by
  induction h with
  | empty => rfl
  | adopt _ metadata plugin types ih =>
      rw [entry?_adopt, latest?_append, latest?_map, ih]
      by_cases hmem : type ∈ types
      · rw [if_pos hmem, if_pos hmem, Option.some_or]
      · rw [if_neg hmem, if_neg hmem, Option.none_or]
  | register _ _ metadata last ih =>
      rw [entry?_register, latest?_append, latest?_single, ih]
      by_cases hlast : type = last
      · rw [if_pos hlast, if_pos hlast, Option.some_or]
      · rw [if_neg hlast, if_neg hlast, Option.none_or]

/-! ### Identities -/

/-- No plugin in a history has the identity that the next one gets. -/
theorem HasHistory.identity_lt (h : HasHistory registry history) :
    ∀ e ∈ history, e.2.identity < registry.nextIdentity := by
  induction h with
  | empty => exact fun e he => absurd he List.not_mem_nil
  | adopt _ metadata plugin types ih =>
      intro e he
      rw [nextIdentity_adopt]
      rcases List.mem_append.mp he with he | he
      · exact Nat.lt_succ_of_lt (ih e he)
      · rcases List.mem_map.mp he with ⟨type, -, rfl⟩
        exact Nat.lt_succ_self _
  | @register _ _ _ before hbefore metadata type ih =>
      intro e he
      rcases List.mem_append.mp he with he | he
      · exact ih e he
      · rw [List.mem_singleton.mp he]
        exact ih before hbefore

/-- An identity stands for one plugin. -/
theorem HasHistory.plugin_eq (h : HasHistory registry history) :
    ∀ e ∈ history, ∀ other ∈ history, e.2.identity = other.2.identity →
      e.2.plugin = other.2.plugin := by
  induction h with
  | empty => exact fun e he => absurd he List.not_mem_nil
  | adopt h metadata plugin types ih =>
      intro e he other ho hi
      rcases List.mem_append.mp he with he | he
      · rcases List.mem_append.mp ho with ho | ho
        · exact ih e he other ho hi
        · rcases List.mem_map.mp ho with ⟨type, -, rfl⟩
          exact absurd hi (Nat.ne_of_lt (h.identity_lt e he))
      · rcases List.mem_map.mp he with ⟨type, -, rfl⟩
        rcases List.mem_append.mp ho with ho | ho
        · exact absurd hi.symm (Nat.ne_of_lt (h.identity_lt other ho))
        · rcases List.mem_map.mp ho with ⟨type', -, rfl⟩
          rfl
  | @register registry history _ before hbefore metadata type ih =>
      -- The plugin that is registered once more is in the history already.
      have hold : ∀ e ∈ history ++ [(type, { before.2 with metadata := metadata })],
          ∃ old ∈ history, old.2.identity = e.2.identity ∧ old.2.plugin = e.2.plugin := by
        intro e he
        rcases List.mem_append.mp he with he | he
        · exact ⟨e, he, rfl, rfl⟩
        · rw [List.mem_singleton.mp he]
          exact ⟨before, hbefore, rfl, rfl⟩
      intro e he other ho hi
      rcases hold e he with ⟨old, hm, hidentity, hplugin⟩
      rcases hold other ho with ⟨old', hm', hidentity', hplugin'⟩
      rw [← hplugin, ← hplugin']
      exact ih old hm old' hm' ((hidentity.trans hi).trans hidentity'.symm)

/-! ### Plugins -/

/-- An entry is kept of a list: its plugin was not seen, and no entry with a smaller type has the
    same one. -/
structure IsKept (entries : List (RecordType × Registered σ)) (seen : List Nat)
    (e : RecordType × Registered σ) : Prop where
  mem : e ∈ entries
  unseen : e.2.identity ∉ seen
  least : ∀ other ∈ entries, other.2.identity = e.2.identity → KeyOrder.cmp other.1 e.1 ≠ .lt

section Kept

variable {first e : RecordType × Registered σ} {rest : List (RecordType × Registered σ)}
  {seen : List Nat}

/-- An entry whose plugin was seen makes no difference. -/
theorem isKept_cons_of_mem (hseen : first.2.identity ∈ seen) :
    IsKept (first :: rest) seen e ↔ IsKept rest seen e := by
  constructor
  · rintro ⟨hmem, hunseen, hleast⟩
    rcases List.mem_cons.mp hmem with rfl | hmem
    · exact absurd hseen hunseen
    · exact ⟨hmem, hunseen, (List.forall_mem_cons.mp hleast).2⟩
  · rintro ⟨hmem, hunseen, hleast⟩
    refine ⟨List.mem_cons_of_mem _ hmem, hunseen, List.forall_mem_cons.mpr ⟨fun hi => ?_, hleast⟩⟩
    exact absurd (hi ▸ hseen) hunseen

/-- An entry with the smallest type is kept if its plugin was not seen, and of the others those are
    kept that have another plugin. -/
theorem isKept_cons_of_not_mem (hunseen : first.2.identity ∉ seen)
    (hfirst : ∀ other ∈ rest, KeyOrder.cmp first.1 other.1 = .lt) :
    IsKept (first :: rest) seen e ↔ e = first ∨ IsKept rest (first.2.identity :: seen) e := by
  constructor
  · rintro ⟨hmem, he, hleast⟩
    rcases List.forall_mem_cons.mp hleast with ⟨hleastFirst, hleastRest⟩
    rcases List.mem_cons.mp hmem with rfl | hmem
    · exact Or.inl rfl
    · refine Or.inr ⟨hmem, ?_, hleastRest⟩
      rw [List.mem_cons, not_or]
      exact ⟨fun hi => hleastFirst hi.symm (hfirst e hmem), he⟩
  · rintro (rfl | ⟨hmem, he, hleast⟩)
    · refine ⟨List.mem_cons_self, hunseen, List.forall_mem_cons.mpr ⟨fun _ => ?_, ?_⟩⟩
      · exact Table.cmp_self_ne_lt _
      · intro other hother _ hlt
        have hgt := Std.OrientedCmp.gt_of_lt (hfirst other hother)
        rw [hlt] at hgt
        cases hgt
    · rw [List.mem_cons, not_or] at he
      refine ⟨List.mem_cons_of_mem _ hmem, he.2,
        List.forall_mem_cons.mpr ⟨fun hi => ?_, hleast⟩⟩
      exact absurd hi.symm he.1

end Kept

/-- Of a list in which plugins come twice the first entry of each is kept, unless it was seen. -/
theorem exists_distinct {entries : List (RecordType × Registered σ)}
    (ho : entries.Pairwise (fun a b => KeyOrder.cmp a.1 b.1 = .lt)) (seen : List Nat) :
    ∃ firsts : List (RecordType × Registered σ), firsts.Sublist entries
      ∧ distinct seen (entries.map (·.2)) = firsts.map (·.2)
      ∧ ∀ e, e ∈ firsts ↔ IsKept entries seen e := by
  induction entries generalizing seen with
  | nil => exact ⟨[], .slnil, rfl, fun e => iff_of_false List.not_mem_nil fun h => nomatch h.mem⟩
  | cons first rest ih =>
      rcases List.pairwise_cons.mp ho with ⟨hfirst, hrest⟩
      rw [List.map_cons, distinct]
      by_cases hs : seen.contains first.2.identity = true
      · rcases ih hrest seen with ⟨firsts, hsub, heq, hkept⟩
        refine ⟨firsts, hsub.cons _, by rw [if_pos hs, heq], fun e => ?_⟩
        rw [isKept_cons_of_mem (List.contains_iff_mem.mp hs), hkept]
      · have hunseen : first.2.identity ∉ seen := fun h => hs (List.contains_iff_mem.mpr h)
        rcases ih hrest (first.2.identity :: seen) with ⟨firsts, hsub, heq, hkept⟩
        refine ⟨first :: firsts, hsub.cons_cons _, by rw [if_neg hs, heq, List.map_cons],
          fun e => ?_⟩
        rw [isKept_cons_of_not_mem hunseen hfirst, List.mem_cons, hkept]

/-- The plugins of a registry are those of the types that are the smallest of their plugins. -/
theorem HasHistory.exists_types (h : HasHistory registry history) :
    ∃ types : List RecordType, types.Pairwise (fun a b => KeyOrder.cmp a b = .lt)
      ∧ registry.plugins.map some = types.map (latest? history)
      ∧ ∀ type, type ∈ types ↔ IsFirst history type := by
  have hentries : ∀ type entry, (type, entry) ∈ registry.entries.entries
      ↔ latest? history type = some entry := by
    intro type entry
    rw [← h.entry?_eq, entry?, Table.get?_eq_some_iff]
  rcases exists_distinct registry.entries.ordered [] with ⟨firsts, hsub, heq, hkept⟩
  refine ⟨firsts.map (·.1), List.pairwise_map.mpr (registry.entries.ordered.sublist hsub), ?_, ?_⟩
  · rw [plugins, Table.values, heq, List.map_map, List.map_map]
    exact List.map_congr_left fun e he => ((hentries e.1 e.2).mp (hsub.subset he)).symm
  · intro type
    rw [List.mem_map]
    constructor
    · rintro ⟨⟨first, entry⟩, he, rfl⟩
      rcases (hkept _).mp he with ⟨he, -, hleast⟩
      exact ⟨entry, (hentries _ _).mp he, fun other found ho hi =>
        hleast (other, found) ((hentries _ _).mpr ho) hi⟩
    · rintro ⟨entry, he, hleast⟩
      refine ⟨(type, entry), (hkept _).mpr ⟨(hentries _ _).mpr he, List.not_mem_nil, ?_⟩, rfl⟩
      exact fun other ho hi => hleast other.1 other.2 ((hentries _ _).mp ho) hi

/-- **Registries follow their histories.** A type has the plugin that was last registered for it, if
    any was. The plugins are listed in the order of the smallest types that are left to them: one
    that has a type once, and one that was replaced everywhere not at all. Plugins are told apart
    by their identities, and an identity stands for one plugin throughout. -/
theorem follows_history (h : HasHistory registry history) :
    (∀ type, registry.lookup type = (latest? history type).map (·.plugin))
      ∧ (∃ types : List RecordType, types.Pairwise (fun a b => KeyOrder.cmp a b = .lt)
        ∧ registry.plugins.map some = types.map (latest? history)
        ∧ ∀ type, type ∈ types ↔ IsFirst history type)
      ∧ (∀ identity, IsCurrent history identity →
        (registry.plugins.map (·.identity)).count identity = 1)
      ∧ (∀ identity, ¬IsCurrent history identity →
        (registry.plugins.map (·.identity)).count identity = 0)
      ∧ ∀ e ∈ history, ∀ other ∈ history, e.2.identity = other.2.identity →
        e.2.plugin = other.2.plugin := by
  rcases registry.plugins_spec with ⟨hnodup, hlisted⟩
  have hcurrent : ∀ identity, identity ∈ registry.plugins.map (·.identity)
      ↔ IsCurrent history identity := by
    intro identity
    rw [hlisted]
    simp only [h.entry?_eq, IsCurrent]
  refine ⟨fun type => ?_, h.exists_types, fun identity hi => ?_, fun identity hi => ?_, h.plugin_eq⟩
  · rw [lookup, h.entry?_eq]
  · exact List.count_eq_one_of_mem hnodup ((hcurrent identity).mpr hi)
  · exact List.count_eq_zero.mpr fun hm => hi ((hcurrent identity).mp hm)

end Registry

namespace Shared

/-- A plugin that takes every record as it is. -/
def keeping (version : String) : Plugin Unit :=
  .stateless version .a (fun _ record => .ok record) fun _ _ => .ok ()

/-- A plugin comes in for two types and loses the smaller one to another. Then it gets a third type
    under another name. -/
def registry : Registry Unit :=
  (((Registry.adopt {} (.ofBuiltin "multi") (keeping "1") [.a, .ofText "TXT"]).1.adopt
    (.ofBuiltin "a") (keeping "2") [.a]).1.register (.ofText "MX")
      ⟨.ofBuiltin "again", 0, keeping "1"⟩).1

def history : List (RecordType × Registered Unit) :=
  [(.a, ⟨.ofBuiltin "multi", 0, keeping "1"⟩),
    (.ofText "TXT", ⟨.ofBuiltin "multi", 0, keeping "1"⟩),
    (.a, ⟨.ofBuiltin "a", 1, keeping "2"⟩),
    (.ofText "MX", ⟨.ofBuiltin "again", 0, keeping "1"⟩)]

theorem hasHistory_registry : Registry.HasHistory registry history :=
  ((Registry.HasHistory.empty.adopt (.ofBuiltin "multi") (keeping "1") [.a, .ofText "TXT"]).adopt
    (.ofBuiltin "a") (keeping "2") [.a]).register List.mem_cons_self (.ofBuiltin "again")
      (.ofText "MX")

/-- The plugin is listed once, behind the one that replaced it, and under the name that goes with
    the smallest type that is left to it. -/
theorem follows_history_shared :
    Registry.HasHistory registry history
      ∧ registry.lookup .a = some (keeping "2")
      ∧ (registry.plugins.map (·.identity)).count 0 = 1
      ∧ registry.plugins.map (·.metadata.name) = ["a", "again"] := by
  rcases Registry.follows_history hasHistory_registry with ⟨hlookup, -, hcurrent, -⟩
  refine ⟨hasHistory_registry, hlookup .a, hcurrent 0 ⟨.ofText "TXT", _, rfl, rfl⟩, rfl⟩

end Shared

namespace Registry

variable {σ : Type} {registry : Registry σ} {history : List (RecordType × Registered σ)}

/-! ### The registries of the program -/

/-- Plugins that come in for one type each add to a history. -/
theorem HasHistory.adoptEach (h : HasHistory registry history)
    (plugins : List (RecordType × String × Plugin σ)) :
    ∃ more, HasHistory (registry.adoptEach plugins).1 (history ++ more) := by
  induction plugins generalizing registry history with
  | nil => exact ⟨[], (List.append_nil history).symm ▸ h⟩
  | cons first rest ih =>
      rcases first with ⟨type, name, plugin⟩
      rcases ih (h.adopt (.ofBuiltin name) plugin [type]) with ⟨more, hmore⟩
      exact ⟨_, List.append_assoc .. ▸ hmore⟩

end Registry

namespace Discovery

open Registry (HasHistory)

variable {history : List (RecordType × Registered Host)}

/-- Starting a plugin adds to a history what the plugin declares, if it gets that far. -/
theorem exists_hasHistory_loadOne {loading : Loading} (h : HasHistory loading.registry history)
    (path : Path) : ∃ more, HasHistory (loadOne loading path).2.registry (history ++ more) := by
  have hsame : HasHistory loading.registry (history ++ []) := (List.append_nil history).symm ▸ h
  unfold loadOne
  split
  · exact ⟨[], hsame⟩
  · split
    · exact ⟨[], hsame⟩
    · dsimp only
      split
      · exact ⟨[], hsame⟩
      · exact ⟨_, h.adopt _ _ _⟩

theorem exists_hasHistory_loadEach {loading : Loading} (h : HasHistory loading.registry history)
    (paths : List Path) :
    ∃ more, HasHistory (loadEach loading paths).2.registry (history ++ more) := by
  induction paths generalizing loading history with
  | nil => exact ⟨[], (List.append_nil history).symm ▸ h⟩
  | cons path paths ih =>
      rcases exists_hasHistory_loadOne h path with ⟨more, hmore⟩
      unfold loadEach
      split
      · next error after hone =>
          rw [hone] at hmore
          exact ⟨more, hmore⟩
      · next after hone =>
          rw [hone] at hmore
          rcases ih hmore with ⟨later, hlater⟩
          exact ⟨more ++ later, List.append_assoc .. ▸ hlater⟩

/-- However loading the plugins of a directory ends, it adds to a history. -/
theorem exists_hasHistory_loadListed {registry : Registry Host} (h : HasHistory registry history)
    (host : Host) (directory : Path) (listing : Except SystemError (List String)) :
    ∃ more, HasHistory (loadListed registry host directory listing).2.registry
      (history ++ more) := by
  unfold loadListed
  split
  · exact ⟨[], (List.append_nil history).symm ▸ h⟩
  · exact exists_hasHistory_loadEach h _

/-- The registry of a run, with plugins for one type each and then those of a directory, has a
    history. -/
theorem exists_hasHistory_load (plugins : List (RecordType × String × Plugin Host)) (host : Host)
    (directory : Path) :
    ∃ history, HasHistory (load (Registry.adoptEach {} plugins).1 host directory).2.registry
      history := by
  rcases HasHistory.empty.adoptEach plugins with ⟨history, hhistory⟩
  rcases exists_hasHistory_loadListed hhistory host directory (listing host.store directory) with
    ⟨more, hmore⟩
  exact ⟨_, hmore⟩

end Discovery

end DnsZones
