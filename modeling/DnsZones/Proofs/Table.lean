import DnsZones.Table
import Mathlib.Data.List.Nodup

/-!
# Laws of Tables

What a table holds after each of its operations.

A table is read through `get?`. The operations are lists at work underneath, but
since the keys of a table strictly increase, `get?` tells everything there is to
know about it: an entry is found exactly if it is listed, and two tables that
hold the same for every key are equal. So each operation needs one law, and no
other proof has to look at the entries.

## Theorems

* `Table.get?_eq_some_iff`: A key holds a value exactly if the entry is listed.
* `Table.ext_get?`: Tables that hold the same are equal.
* `Table.forall_insert`: What an insertion keeps true of a whole table.
* `Table.get?_filter`, `Table.get?_erase_self`, `Table.get?_erase_of_ne`,
  `Table.get?_mapValues`: What is held after these operations.
* `Table.findSome?_entries_eq_some_iff`: The first entry with some property.
* `Table.get?_mergeOver`: The upper table decides, and the lower one elsewhere.
* `Table.erase_insert`: Erasing a new entry gives the old table.
* `Table.keys_eq_of_contains`: Tables with the same keys list them alike.
-/

namespace DnsZones

namespace Table

variable {κ β γ : Type} [KeyOrder κ]

theorem cmp_eq_iff {a b : κ} : KeyOrder.cmp a b = .eq ↔ a = b :=
  ⟨Std.LawfulEqCmp.eq_of_compare, fun h => h ▸ Std.ReflCmp.compare_self⟩

theorem cmp_self_ne_lt (a : κ) : KeyOrder.cmp a a ≠ .lt := by
  rw [cmp_eq_iff.mpr rfl]
  decide

theorem mem_of_lookup {key : κ} {value : β} {entries : List (κ × β)}
    (h : lookup key entries = some value) : (key, value) ∈ entries := by
  induction entries with
  | nil => cases h
  | cons head rest ih =>
      rcases head with ⟨k, v⟩
      simp only [lookup] at h
      by_cases hk : KeyOrder.cmp key k = .eq
      · rw [if_pos hk] at h
        rcases cmp_eq_iff.mp hk with rfl
        cases h
        exact List.mem_cons_self
      · rw [if_neg hk] at h
        exact List.mem_cons_of_mem _ (ih h)

/-- A listed entry is found, because no other entry has its key. -/
theorem lookup_of_mem {key : κ} {value : β} {entries : List (κ × β)}
    (ho : entries.Pairwise (fun a b => KeyOrder.cmp a.1 b.1 = .lt))
    (h : (key, value) ∈ entries) : lookup key entries = some value := by
  induction entries with
  | nil => cases h
  | cons head rest ih =>
      rcases head with ⟨k, v⟩
      rcases List.pairwise_cons.mp ho with ⟨hhead, hrest⟩
      simp only [lookup]
      rcases List.mem_cons.mp h with he | hm
      · cases he
        rw [if_pos (cmp_eq_iff.mpr rfl)]
      · have hgt := Std.OrientedCmp.gt_of_lt (hhead _ hm)
        rw [if_neg (by rw [hgt]; decide)]
        exact ih hrest hm

/-- A key that comes before all entries has none. -/
theorem lookup_eq_none_of_lt {key : κ} {entries : List (κ × β)}
    (h : ∀ e ∈ entries, KeyOrder.cmp key e.1 = .lt) : lookup key entries = none := by
  cases hl : lookup key entries with
  | none => rfl
  | some value => exact absurd (h _ (mem_of_lookup hl)) (cmp_self_ne_lt key)

/-- A key holds a value exactly if the entry is listed. -/
theorem get?_eq_some_iff {table : Table κ β} {key : κ} {value : β} :
    table.get? key = some value ↔ (key, value) ∈ table.entries :=
  ⟨mem_of_lookup, lookup_of_mem table.ordered⟩

theorem get?_eq_none_iff {table : Table κ β} {key : κ} :
    table.get? key = none ↔ ∀ value, (key, value) ∉ table.entries := by
  constructor
  · intro h value hm
    rw [get?_eq_some_iff.mpr hm] at h
    cases h
  · intro h
    cases hv : table.get? key with
    | none => rfl
    | some value => exact absurd (get?_eq_some_iff.mp hv) (h value)

theorem contains_iff {table : Table κ β} {key : κ} :
    table.contains key = true ↔ ∃ value, table.get? key = some value :=
  Option.isSome_iff_exists

theorem contains_eq_false_iff {table : Table κ β} {key : κ} :
    table.contains key = false ↔ table.get? key = none := by
  rw [contains, Option.isSome_eq_false_iff, Option.isNone_iff_eq_none]

@[simp]
theorem get?_insert_self (table : Table κ β) (key : κ) (value : β) :
    (table.insert key value).get? key = some value := by
  rw [get?_insert, if_pos (cmp_eq_iff.mpr rfl)]

theorem get?_insert_of_ne (table : Table κ β) {key other : κ} (value : β) (h : other ≠ key) :
    (table.insert key value).get? other = table.get? other := by
  rw [get?_insert, if_neg fun he => h (cmp_eq_iff.mp he)]

theorem contains_insert_iff {table : Table κ β} {key other : κ} {value : β} :
    (table.insert key value).contains other = true
      ↔ other = key ∨ table.contains other = true := by
  unfold contains
  by_cases ho : other = key
  · subst ho
    rw [get?_insert_self]
    exact iff_of_true rfl (Or.inl rfl)
  · rw [get?_insert_of_ne _ _ ho]
    exact ⟨Or.inr, fun h => h.resolve_left ho⟩

/-- What holds of everything in a table and of a new entry holds of everything in the table with
    that entry. -/
theorem forall_insert {P : κ → β → Prop} {table : Table κ β}
    (h : ∀ key value, table.get? key = some value → P key value) {key : κ} {value : β}
    (hnew : P key value) :
    ∀ other found, (table.insert key value).get? other = some found → P other found := by
  intro other found hf
  by_cases ho : other = key
  · subst ho
    rw [get?_insert_self, Option.some.injEq] at hf
    exact hf ▸ hnew
  · rw [get?_insert_of_ne _ _ ho] at hf
    exact h other found hf

/-- Tables that hold the same for every key are equal. -/
theorem ext_get? {a b : Table κ β} (h : ∀ key, a.get? key = b.get? key) : a = b := by
  have hmem : ∀ e, e ∈ a.entries ↔ e ∈ b.entries := by
    intro e
    rw [← get?_eq_some_iff, ← get?_eq_some_iff, h]
  have hnodup : ∀ t : Table κ β, t.entries.Nodup := fun t => t.ordered.imp fun {x y} hlt he => by
    subst he
    exact cmp_self_ne_lt x.1 hlt
  refine ext (List.Perm.eq_of_pairwise (fun x y _ _ hxy hyx => ?_) a.ordered b.ordered
    ((List.perm_ext_iff_of_nodup (hnodup a) (hnodup b)).mpr hmem))
  -- A strict order never lists two entries both ways round.
  rw [Std.OrientedCmp.gt_of_lt hxy] at hyx
  cases hyx

theorem get?_filter (table : Table κ β) (keep : κ → β → Bool) (key : κ) :
    (table.filter keep).get? key = (table.get? key).filter (keep key) := by
  refine Option.ext fun value => ?_
  rw [get?_eq_some_iff, Option.filter_eq_some_iff, get?_eq_some_iff]
  exact List.mem_filter

@[simp]
theorem get?_erase_self (table : Table κ β) (key : κ) : (table.erase key).get? key = none := by
  rw [erase, get?_filter, cmp_eq_iff.mpr rfl]
  cases table.get? key with
  | none => rfl
  | some value => rfl

theorem get?_erase_of_ne (table : Table κ β) {key other : κ} (h : other ≠ key) :
    (table.erase key).get? other = table.get? other := by
  have hkeep : (KeyOrder.cmp key other != .eq) = true :=
    bne_iff_ne.mpr fun he => h (cmp_eq_iff.mp he).symm
  rw [erase, get?_filter]
  cases table.get? other with
  | none => rfl
  | some value => exact if_pos hkeep

theorem get?_mapValues (f : κ → β → γ) (table : Table κ β) (key : κ) :
    (table.mapValues f).get? key = (table.get? key).map (f key) := by
  refine Option.ext fun value => ?_
  rw [get?_eq_some_iff, Option.map_eq_some_iff]
  constructor
  · intro h
    rcases List.mem_map.mp h with ⟨e, he, hv⟩
    cases hv
    exact ⟨e.2, get?_eq_some_iff.mpr he, rfl⟩
  · rintro ⟨v, hv, rfl⟩
    exact List.mem_map.mpr ⟨(key, v), get?_eq_some_iff.mp hv, rfl⟩

/-- Entries inserted one after the other into a table: where they have a key, they decide. -/
theorem get?_foldl_insert {entries : List (κ × β)}
    (ho : entries.Pairwise (fun a b => KeyOrder.cmp a.1 b.1 = .lt)) (table : Table κ β) (key : κ) :
    (entries.foldl (fun table e => table.insert e.1 e.2) table).get? key
      = (lookup key entries).or (table.get? key) := by
  induction entries generalizing table with
  | nil => rfl
  | cons head rest ih =>
      rcases head with ⟨k, v⟩
      rcases List.pairwise_cons.mp ho with ⟨hhead, hrest⟩
      rw [List.foldl_cons, ih hrest]
      simp only [lookup, get?_insert]
      by_cases hk : KeyOrder.cmp key k = .eq
      · rw [if_pos hk, if_pos hk]
        -- No later entry has the key of the first.
        rw [cmp_eq_iff.mp hk, lookup_eq_none_of_lt hhead]
        rfl
      · rw [if_neg hk, if_neg hk]

theorem lookup_append (key : κ) (before later : List (κ × β)) :
    lookup key (before ++ later) = (lookup key before).or (lookup key later) := by
  induction before with
  | nil => rfl
  | cons head rest ih =>
      rcases head with ⟨k, v⟩
      rw [List.cons_append, lookup, lookup, ih]
      by_cases hk : KeyOrder.cmp key k = .eq
      · rw [if_pos hk, if_pos hk, Option.some_or]
      · rw [if_neg hk, if_neg hk]

/-- Entries inserted from the last to the first: where they have a key, the first decides. -/
theorem get?_foldr_insert (entries : List (κ × β)) (table : Table κ β) (key : κ) :
    (entries.foldr (fun e table => table.insert e.1 e.2) table).get? key
      = (lookup key entries).or (table.get? key) := by
  induction entries with
  | nil => rfl
  | cons head rest ih =>
      rcases head with ⟨k, v⟩
      rw [List.foldr_cons, get?_insert, ih, lookup]
      by_cases hk : KeyOrder.cmp key k = .eq
      · rw [if_pos hk, if_pos hk, Option.some_or]
      · rw [if_neg hk, if_neg hk]

/-- The entry of a key stands between entries of other keys. -/
theorem exists_entries_eq {table : Table κ β} {key : κ} {value : β}
    (h : table.get? key = some value) :
    ∃ before later, table.entries = before ++ (key, value) :: later
      ∧ (∀ e ∈ before, e.1 ≠ key) ∧ ∀ e ∈ later, e.1 ≠ key := by
  rcases List.append_of_mem (get?_eq_some_iff.mp h) with ⟨before, later, hentries⟩
  have hordered := table.ordered
  rw [hentries, List.pairwise_append, List.pairwise_cons] at hordered
  rcases hordered with ⟨-, ⟨hlater, -⟩, hbefore⟩
  refine ⟨before, later, hentries, fun e he heq => ?_, fun e he heq => ?_⟩
  · have hlt := hbefore e he _ List.mem_cons_self
    rw [heq] at hlt
    exact cmp_self_ne_lt key hlt
  · have hlt := hlater e he
    rw [heq] at hlt
    exact cmp_self_ne_lt key hlt

/-- The first entry with some property, in the order of the keys. -/
theorem findSome?_entries_eq_some_iff {table : Table κ β} {f : κ × β → Option γ} {result : γ} :
    table.entries.findSome? f = some result
      ↔ ∃ key value, table.get? key = some value ∧ f (key, value) = some result
        ∧ ∀ other found, table.get? other = some found → KeyOrder.cmp other key = .lt →
          f (other, found) = none := by
  rw [List.findSome?_eq_some_iff]
  constructor
  · rintro ⟨before, ⟨key, value⟩, later, hentries, hf, hbefore⟩
    have hordered := table.ordered
    rw [hentries, List.pairwise_append, List.pairwise_cons] at hordered
    refine ⟨key, value, ?_, hf, fun other found ho hlt => ?_⟩
    · rw [get?_eq_some_iff, hentries]
      exact List.mem_append_right _ List.mem_cons_self
    rw [get?_eq_some_iff, hentries, List.mem_append, List.mem_cons] at ho
    rcases ho with hm | he | hm
    · exact hbefore _ hm
    · -- What comes before the entry is neither the entry nor behind it.
      cases he
      exact absurd hlt (cmp_self_ne_lt _)
    · have hgt := Std.OrientedCmp.gt_of_lt (hordered.2.1.1 _ hm)
      rw [hlt] at hgt
      cases hgt
  · rintro ⟨key, value, hget, hf, hbefore⟩
    rcases List.append_of_mem (get?_eq_some_iff.mp hget) with ⟨before, later, hentries⟩
    have hordered := table.ordered
    rw [hentries, List.pairwise_append] at hordered
    refine ⟨before, (key, value), later, hentries, hf, fun e he => ?_⟩
    refine hbefore e.1 e.2 ?_ (hordered.2.2 e he _ List.mem_cons_self)
    rw [get?_eq_some_iff, hentries]
    exact List.mem_append_left _ he

/-- Of two tables laid over one another the upper decides, and the lower where it is silent. -/
theorem get?_mergeOver (upper lower : Table κ β) (key : κ) :
    (upper.mergeOver lower).get? key = (upper.get? key).or (lower.get? key) :=
  get?_foldl_insert upper.ordered lower key

/-- Erasing an entry that was new gives the table back. -/
theorem erase_insert {table : Table κ β} {key : κ} (h : table.get? key = none) (value : β) :
    (table.insert key value).erase key = table := by
  refine ext_get? fun other => ?_
  by_cases ho : other = key
  · rw [ho, get?_erase_self, h]
  · rw [get?_erase_of_ne _ ho, get?_insert_of_ne _ _ ho]

/-! ### Keys -/

theorem mem_keys_iff {table : Table κ β} {key : κ} :
    key ∈ table.keys ↔ ∃ value, table.get? key = some value := by
  unfold keys
  rw [List.mem_map]
  constructor
  · rintro ⟨⟨k, value⟩, hm, rfl⟩
    exact ⟨value, get?_eq_some_iff.mpr hm⟩
  · rintro ⟨value, hv⟩
    exact ⟨(key, value), get?_eq_some_iff.mp hv, rfl⟩

/-- Keys increase strictly, so none comes twice. -/
theorem nodup_keys (table : Table κ β) : table.keys.Nodup := by
  unfold keys
  rw [List.Nodup, List.pairwise_map]
  refine table.ordered.imp fun {a b} hlt he => ?_
  rw [he] at hlt
  exact cmp_self_ne_lt b.1 hlt

theorem keys_mapValues (f : κ → β → γ) (table : Table κ β) :
    (table.mapValues f).keys = table.keys := by
  unfold keys mapValues
  rw [List.map_map]
  rfl

/-- Tables with the same keys list them alike, whatever the keys hold. -/
theorem keys_eq_of_contains {a : Table κ β} {b : Table κ γ}
    (h : ∀ key, a.contains key = b.contains key) : a.keys = b.keys := by
  have hsame : (a.mapValues fun _ _ => ()) = b.mapValues fun _ _ => () := by
    refine ext_get? fun key => ?_
    have hk := h key
    unfold contains at hk
    rw [get?_mapValues, get?_mapValues]
    cases ha : a.get? key with
    | none =>
        rw [ha, Option.isSome_none, eq_comm, Option.isSome_eq_false_iff,
          Option.isNone_iff_eq_none] at hk
        rw [hk, Option.map_none, Option.map_none]
    | some value =>
        rw [ha, Option.isSome_some, eq_comm, Option.isSome_iff_exists] at hk
        rcases hk with ⟨other, ho⟩
        rw [ho, Option.map_some, Option.map_some]
  rw [← keys_mapValues (fun _ _ => ()) a, ← keys_mapValues (fun _ _ => ()) b, hsame]

end Table

end DnsZones
