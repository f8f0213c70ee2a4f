import DnsZones.Generation
import DnsZones.Proofs.Table

/-!
# Deriving from Many Zones

What is derived from many zones together, in terms of what each of them yields.

`Derivation.ofZones` goes through the zones and takes in the reverse zones of
each, writing down errors and notices as it goes. Only two things about it matter
to the stages that follow: which zones come out and which errors. The errors are
simply those of the zones one by one. The zones are what is left of a plain list,
the reverse zones of all sources one after the other, when it is put into a table:
a name that is given is passed over, and what comes in under a name that is taken
is merged into what is there.

So a name is in the table exactly if somebody yields it and nobody gives it, and a
property of the zones in it can be shown by going along the list: it must hold of
every zone that is yielded, and merging must keep it.

## Main definitions

* `Derivation.yields`: The reverse zones of one source.
* `Derivation.failure?`: Why a source has none.
* `Derivation.Yields`: Some source yields a reverse zone of this name.

## Theorems

* `Derivation.zones_ofZones`, `Derivation.errors_ofZones`: What comes out.
* `Derivation.contains_ofZones_iff`: The names that are derived.
* `Derivation.ofZones_induction`, `Derivation.merge_induction`: How a property of
  derived zones is shown.
-/

namespace DnsZones

namespace Reverse

theorem derive_eq_ok_iff {name : String} {zone : Zone} {zones : Zones} :
    derive name zone = .ok zones ↔ deriveAll name zone = .ok zones := by
  unfold derive
  cases deriveAll name zone with
  | ok found => simp only [Except.ok.injEq]
  | error cause => simp only [reduceCtorEq]

theorem zone_of_derive_error {name : String} {zone : Zone} {error : ZoneError}
    (h : derive name zone = .error error) : error.zone = name := by
  unfold derive at h
  cases hd : deriveAll name zone with
  | ok zones =>
      rw [hd] at h
      cases h
  | error cause =>
      rw [hd] at h
      cases h
      rfl

end Reverse

namespace Derivation

/-- The reverse zones of a source, if it asks for them. -/
def yields (name : String) (zone : Zone) : List (String × Zone) :=
  if isWanted zone then
    match Reverse.derive name zone with
    | .ok zones => zones.entries
    | .error _ => []
  else []

/-- Why a source that asks for its reverse zones has none. -/
def failure? (name : String) (zone : Zone) : Option ZoneError :=
  if isWanted zone then
    match Reverse.derive name zone with
    | .ok _ => none
    | .error error => some error
  else none

/-- One of the zones yields a reverse zone of this name. -/
def Yields (given : Zones) (name : String) : Prop :=
  ∃ source zone reverse, given.get? source = some zone ∧ (name, reverse) ∈ yields source zone

/-- The derived zones after one more reverse zone has come in. -/
def joined (given derived : Zones) (reverse : String × Zone) : Zones :=
  if given.contains reverse.1 then derived
  else
    match derived.get? reverse.1 with
    | none => derived.insert reverse.1 reverse.2
    | some existing => derived.insert reverse.1 (merge existing reverse.2.records.entries).1

theorem mem_yields_iff {source name : String} {zone reverse : Zone} :
    (name, reverse) ∈ yields source zone
      ↔ isWanted zone = true ∧ ∃ zones, Reverse.derive source zone = .ok zones
        ∧ zones.get? name = some reverse := by
  unfold yields
  by_cases hw : isWanted zone = true
  · rw [if_pos hw]
    cases hd : Reverse.derive source zone with
    | error error => simp only [List.not_mem_nil, reduceCtorEq, false_and, exists_false, and_false]
    | ok zones =>
        simp only [hw, Except.ok.injEq, exists_eq_left', true_and]
        exact Table.get?_eq_some_iff.symm
  · rw [if_neg hw]
    simp only [hw, List.not_mem_nil, Bool.false_eq_true, false_and]

theorem failure?_eq_some_iff {name : String} {zone : Zone} {error : ZoneError} :
    failure? name zone = some error
      ↔ isWanted zone = true ∧ Reverse.derive name zone = .error error := by
  unfold failure?
  by_cases hw : isWanted zone = true
  · rw [if_pos hw]
    cases hd : Reverse.derive name zone with
    | error cause => simp only [hw, Option.some.injEq, Except.error.injEq, true_and]
    | ok zones => simp only [reduceCtorEq, and_false]
  · rw [if_neg hw]
    simp only [hw, reduceCtorEq, Bool.false_eq_true, false_and]

/-! ### What comes out -/

theorem zones_add (given : Zones) (derivation : Derivation) (name : String) (zone : Zone) :
    (derivation.add given name zone).zones = joined given derivation.zones (name, zone) := by
  unfold add joined
  by_cases hg : given.contains name = true
  · rw [if_pos hg, if_pos hg]
  · rw [if_neg hg, if_neg hg]
    cases derivation.zones.get? name with
    | none => rfl
    | some existing => rfl

theorem errors_add (given : Zones) (derivation : Derivation) (name : String) (zone : Zone) :
    (derivation.add given name zone).errors = derivation.errors := by
  unfold add
  by_cases hg : given.contains name = true
  · rw [if_pos hg]
  · rw [if_neg hg]
    cases derivation.zones.get? name with
    | none => rfl
    | some existing => rfl

theorem zones_foldl_add (given : Zones) (derivation : Derivation)
    (reverses : List (String × Zone)) :
    (reverses.foldl (fun d e => d.add given e.1 e.2) derivation).zones
      = reverses.foldl (joined given) derivation.zones := by
  induction reverses generalizing derivation with
  | nil => rfl
  | cons first rest ih => rw [List.foldl_cons, List.foldl_cons, ih, zones_add]

theorem errors_foldl_add (given : Zones) (derivation : Derivation)
    (reverses : List (String × Zone)) :
    (reverses.foldl (fun d e => d.add given e.1 e.2) derivation).errors = derivation.errors := by
  induction reverses generalizing derivation with
  | nil => rfl
  | cons first rest ih => rw [List.foldl_cons, ih, errors_add]

theorem zones_addSource (given : Zones) (derivation : Derivation) (name : String) (zone : Zone) :
    (derivation.addSource given name zone).zones
      = (yields name zone).foldl (joined given) derivation.zones := by
  unfold addSource yields
  by_cases hw : isWanted zone = true
  · rw [if_pos hw, if_pos hw]
    cases Reverse.derive name zone with
    | error error => rfl
    | ok zones => exact zones_foldl_add given derivation zones.entries
  · rw [if_neg hw, if_neg hw]
    rfl

theorem errors_addSource (given : Zones) (derivation : Derivation) (name : String) (zone : Zone) :
    (derivation.addSource given name zone).errors
      = derivation.errors ++ (failure? name zone).toList := by
  unfold addSource failure?
  by_cases hw : isWanted zone = true
  · rw [if_pos hw, if_pos hw]
    cases Reverse.derive name zone with
    | error error => rfl
    | ok zones =>
        rw [Option.toList_none, List.append_nil]
        exact errors_foldl_add given derivation zones.entries
  · rw [if_neg hw, if_neg hw, Option.toList_none, List.append_nil]

/-- The derived zones are the reverse zones of all sources, put into a table one by one. -/
theorem zones_ofZones (given : Zones) :
    (ofZones given).zones
      = (given.entries.flatMap fun e => yields e.1 e.2).foldl (joined given) Table.empty := by
  have hgo : ∀ (entries : List (String × Zone)) (derivation : Derivation),
      (entries.foldl (fun d e => d.addSource given e.1 e.2) derivation).zones
        = (entries.flatMap fun e => yields e.1 e.2).foldl (joined given) derivation.zones := by
    -- Each source finds what those before it left, so the start must be free.
    intro entries
    induction entries with
    | nil => exact fun derivation => rfl
    | cons first rest ih =>
        intro derivation
        rw [List.foldl_cons, ih, zones_addSource, List.flatMap_cons, List.foldl_append]
  exact hgo given.entries {}

/-- The errors are those of the sources, in their order. -/
theorem errors_ofZones (given : Zones) :
    (ofZones given).errors = given.entries.filterMap fun e => failure? e.1 e.2 := by
  have hgo : ∀ (entries : List (String × Zone)) (derivation : Derivation),
      (entries.foldl (fun d e => d.addSource given e.1 e.2) derivation).errors
        = derivation.errors ++ entries.filterMap fun e => failure? e.1 e.2 := by
    intro entries
    induction entries with
    | nil => exact fun derivation => (List.append_nil _).symm
    | cons first rest ih =>
        intro derivation
        rw [List.foldl_cons, ih, errors_addSource, List.append_assoc, List.filterMap_cons]
        cases failure? first.1 first.2 with
        | none => rfl
        | some error => rfl
  exact hgo given.entries {}

theorem mem_errors_ofZones_iff {given : Zones} {error : ZoneError} :
    error ∈ (ofZones given).errors
      ↔ ∃ name zone, given.get? name = some zone ∧ failure? name zone = some error := by
  rw [errors_ofZones, List.mem_filterMap]
  constructor
  · rintro ⟨⟨name, zone⟩, hm, hf⟩
    exact ⟨name, zone, Table.get?_eq_some_iff.mpr hm, hf⟩
  · rintro ⟨name, zone, hz, hf⟩
    exact ⟨(name, zone), Table.get?_eq_some_iff.mp hz, hf⟩

/-! ### Names -/

theorem contains_joined_iff {given derived : Zones} {reverse : String × Zone} {name : String} :
    (joined given derived reverse).contains name = true
      ↔ derived.contains name = true ∨ (given.contains name = false ∧ name = reverse.1) := by
  unfold joined
  by_cases hg : given.contains reverse.1 = true
  · rw [if_pos hg]
    constructor
    · exact Or.inl
    · rintro (h | ⟨hn, rfl⟩)
      · exact h
      · rw [hg] at hn
        cases hn
  · have hinsert : ∀ zone, (derived.insert reverse.1 zone).contains name = true
        ↔ derived.contains name = true ∨ (given.contains name = false ∧ name = reverse.1) := by
      intro zone
      rw [Table.contains_insert_iff, or_comm]
      refine or_congr_right ⟨fun he => ⟨?_, he⟩, And.right⟩
      rw [he]
      exact Bool.eq_false_iff.mpr hg
    rw [if_neg hg]
    cases derived.get? reverse.1 with
    | none => exact hinsert _
    | some existing => exact hinsert _

theorem contains_foldl_joined_iff {given derived : Zones} {reverses : List (String × Zone)}
    {name : String} :
    (reverses.foldl (joined given) derived).contains name = true
      ↔ derived.contains name = true
        ∨ (given.contains name = false ∧ ∃ zone, (name, zone) ∈ reverses) := by
  induction reverses generalizing derived with
  | nil => simp only [List.foldl_nil, List.not_mem_nil, exists_false, and_false, or_false]
  | cons first rest ih =>
      -- Both sides ask the same of the zones that are given; what is left is which names come in.
      rw [List.foldl_cons, ih, contains_joined_iff, or_assoc, ← and_or_left]
      refine or_congr_right (and_congr_right fun _ => ?_)
      constructor
      · rintro (rfl | ⟨zone, hm⟩)
        · exact ⟨first.2, List.mem_cons_self⟩
        · exact ⟨zone, List.mem_cons_of_mem _ hm⟩
      · rintro ⟨zone, hm⟩
        rcases List.mem_cons.mp hm with he | hm
        · exact Or.inl (congrArg Prod.fst he)
        · exact Or.inr ⟨zone, hm⟩

/-- A name is derived exactly if a source yields it and nothing is given under it. -/
theorem contains_ofZones_iff {given : Zones} {name : String} :
    (ofZones given).zones.contains name = true
      ↔ given.contains name = false ∧ Yields given name := by
  rw [zones_ofZones, contains_foldl_joined_iff]
  have hempty : (Table.empty : Zones).contains name = false := rfl
  rw [hempty]
  simp only [Bool.false_eq_true, false_or]
  refine and_congr_right fun _ => ?_
  constructor
  · rintro ⟨reverse, hm⟩
    rcases List.mem_flatMap.mp hm with ⟨⟨source, zone⟩, hs, hy⟩
    exact ⟨source, zone, reverse, Table.get?_eq_some_iff.mpr hs, hy⟩
  · rintro ⟨source, zone, reverse, hs, hy⟩
    exact ⟨reverse, List.mem_flatMap.mpr ⟨(source, zone), Table.get?_eq_some_iff.mp hs, hy⟩⟩

/-- No reverse zone is derived under a given name. -/
theorem ofZones_get?_of_given {given : Zones} {name : String}
    (hgiven : given.contains name = true) : (ofZones given).zones.get? name = none := by
  refine Table.contains_eq_false_iff.mp (Bool.eq_false_iff.mpr fun h => ?_)
  rw [(contains_ofZones_iff.mp h).1] at hgiven
  cases hgiven

/-! ### Contents -/

/-- Merging goes record by record: one that is new and no start of authority is inserted, every
    other one is passed over. -/
theorem merge_induction {motive : Zone → Prop} {existing : Zone} {records : List (String × Record)}
    (hstart : motive existing)
    (hinsert : ∀ zone identifier record, motive zone → (identifier, record) ∈ records →
      record.type ≠ .soa → zone.records.get? identifier = none →
      motive (zone.insert identifier record)) :
    motive (merge existing records).1 := by
  induction records generalizing existing with
  | nil => exact hstart
  | cons first rest ih =>
      rcases first with ⟨identifier, record⟩
      have hrest : ∀ zone, motive zone → motive (merge zone rest).1 := fun zone hzone =>
        ih hzone fun z i r hz hm => hinsert z i r hz (List.mem_cons_of_mem _ hm)
      -- The existing zone stays as it is unless the record is neither of the two.
      unfold merge
      by_cases hs : record.type = .soa
      · rw [if_pos hs]
        exact hrest existing hstart
      · rw [if_neg hs]
        by_cases hc : existing.records.contains identifier = true
        · rw [if_pos hc]
          exact hrest existing hstart
        · rw [if_neg hc]
          rw [Bool.not_eq_true, Table.contains_eq_false_iff] at hc
          exact hrest _ (hinsert existing identifier record hstart List.mem_cons_self hs hc)

/-- What holds of every zone that is yielded, and is kept by merging another such zone into it,
    holds of every zone that is derived. -/
theorem ofZones_induction {given : Zones} {motive : String → Zone → Prop}
    (hyield : ∀ source zone name reverse, given.get? source = some zone →
      (name, reverse) ∈ yields source zone → motive name reverse)
    (hmerge : ∀ name existing other, motive name existing → motive name other →
      motive name (merge existing other.records.entries).1)
    {name : String} {zone : Zone} (h : (ofZones given).zones.get? name = some zone) :
    motive name zone := by
  have hgo : ∀ (reverses : List (String × Zone)) (derived : Zones),
      (∀ reverse ∈ reverses, motive reverse.1 reverse.2) →
      (∀ n z, derived.get? n = some z → motive n z) →
      ∀ n z, (reverses.foldl (joined given) derived).get? n = some z → motive n z := by
    intro reverses
    induction reverses with
    | nil => exact fun derived _ hderived => hderived
    | cons first rest ih =>
        intro derived hall hderived
        have hfirst := hall first List.mem_cons_self
        -- Whatever comes in under the first name has the property, so the table keeps it.
        have hinsert : ∀ new, motive first.1 new →
            ∀ n z, (derived.insert first.1 new).get? n = some z → motive n z :=
          fun new hnew => Table.forall_insert hderived hnew
        refine ih (joined given derived first)
          (fun reverse hm => hall reverse (List.mem_cons_of_mem _ hm)) ?_
        unfold joined
        by_cases hg : given.contains first.1 = true
        · rw [if_pos hg]
          exact hderived
        · rw [if_neg hg]
          cases he : derived.get? first.1 with
          | none => exact hinsert _ hfirst
          | some existing => exact hinsert _ (hmerge _ _ _ (hderived _ _ he) hfirst)
  rw [zones_ofZones] at h
  refine hgo _ Table.empty (fun reverse hm => ?_) (fun n z hz => ?_) name zone h
  · rcases List.mem_flatMap.mp hm with ⟨⟨source, origin⟩, hs, hy⟩
    exact hyield source origin _ _ (Table.get?_eq_some_iff.mpr hs) hy
  · rw [Table.get?_empty] at hz
    cases hz

end Derivation

end DnsZones
