import DnsZones.Definition
import DnsZones.Proofs.Table

/-!
# Reading Back

How the ways to read JSON undo the ways to write it.

A reader of a value with fields takes member after member into what it knows so
far. Two things follow from that alone: what is read from some members and then
others is put together from both, and whatever taking one member keeps true is
true in the end.

A reader undoes a writer when every value that is worth keeping is read again
from its own document. If besides nothing else is ever read, then reading and
writing lose nothing in either direction, however often they are repeated.

## Main definitions

* `Json.IsLossless`: A writer and a reader that lose nothing.

## Theorems

* `Json.IsLossless.of_read_write`: Two of the laws give the others.
* `Json.readMembers_append`: Members are read one after the other.
* `Json.readMembers_invariant`: What every member keeps true is true at the end.
* `Json.readItems_map`, `Json.asTable_toJson`: A list and a table are read back if
  what is in them is.
* `Json.forall_of_asTable`: What is in a table that was read has been read.
-/

namespace DnsZones

namespace Json

variable {α β : Type} {read : Json → Reading α} {write : α → Json}

/-! ### There and back -/

/-- A writer and a reader between which nothing is lost, of the values that are whole. -/
structure IsLossless (write : α → Json) (read : Json → Reading α) (IsWhole : α → Prop) : Prop where
  /-- A whole value is read back from its document. -/
  read_write : ∀ value, IsWhole value → read (write value) = .ok value
  /-- Whatever is read is whole. -/
  isWhole_of_read : ∀ json value, read json = .ok value → IsWhole value
  /-- Reading, writing and reading again is reading. -/
  read_again : ∀ json, ((read json).bind fun value => read (write value)) = read json
  /-- Writing, reading and writing again is writing. -/
  write_again : ∀ value, IsWhole value → (read (write value)).map write = .ok (write value)

/-- If whole values are read back and nothing else is read, then nothing is lost. -/
theorem IsLossless.of_read_write {IsWhole : α → Prop}
    (hback : ∀ value, IsWhole value → read (write value) = .ok value)
    (hwhole : ∀ json value, read json = .ok value → IsWhole value) :
    IsLossless write read IsWhole where
  read_write := hback
  isWhole_of_read := hwhole
  read_again := by
    intro json
    cases hr : read json with
    | error error => rfl
    | ok value => exact hback value (hwhole json value hr)
  write_again := by
    intro value h
    rw [hback value h]
    rfl

/-! ### Steps of a reader -/

/-- A reader that goes on after another has read succeeds if both do. -/
theorem bind_eq_ok_iff {x : Reading α} {next : α → Reading β} {value : β} :
    (x >>= next) = .ok value ↔ ∃ first, x = .ok first ∧ next first = .ok value := by
  cases x with
  | error error => simp only [bind, Except.bind, reduceCtorEq, false_and, exists_false]
  | ok first => simp only [bind, Except.bind, Except.ok.injEq, exists_eq_left']

theorem map_eq_ok_iff {x : Reading α} {f : α → β} {value : β} :
    x.map f = .ok value ↔ ∃ first, x = .ok first ∧ f first = value := by
  cases x with
  | error error => simp only [Except.map, reduceCtorEq, false_and, exists_false]
  | ok first => simp only [Except.map, Except.ok.injEq, exists_eq_left']

theorem required_eq_ok_iff {x : Option α} {value : α} :
    required x = .ok value ↔ x = some value := by
  cases x with
  | none => simp only [required, reduceCtorEq]
  | some found => simp only [required, Except.ok.injEq, Option.some.injEq]

/-! ### Fields -/

theorem readMembers_append {take : α → String → Json → Reading α} (known : α)
    (xs ys : List (Literal × Json)) :
    readMembers take known (xs ++ ys)
      = (readMembers take known xs).bind fun known => readMembers take known ys := by
  induction xs generalizing known with
  | nil => rfl
  | cons first rest ih =>
      rcases first with ⟨_ | name, json⟩
      · rfl
      · simp only [List.cons_append, readMembers]
        cases take known name json with
        | error error => rfl
        | ok known => exact ih known

/-- What holds at first, and is kept by every member that is taken, holds in the end. -/
theorem readMembers_invariant {take : α → String → Json → Reading α} {P : α → Prop}
    (hstep : ∀ known name json after, P known → take known name json = .ok after → P after)
    {known after : α} {entries : List (Literal × Json)} (h : P known)
    (hr : readMembers take known entries = .ok after) : P after := by
  induction entries generalizing known with
  | nil =>
      cases hr
      exact h
  | cons first rest ih =>
      rcases first with ⟨_ | name, json⟩
      · cases hr
      · rw [readMembers] at hr
        cases ht : take known name json with
        | error error =>
            rw [ht] at hr
            cases hr
        | ok next =>
            rw [ht] at hr
            exact ih (hstep known name json next h ht) hr

/-- A member that may be left out. -/
def optionalMember (name : String) (write : β → Json) : Option β → List (Literal × Json)
  | some value => [(some name, write value)]
  | none => []

theorem optionalText_eq (name : String) (text : Option String) :
    optionalText name text = optionalMember name Json.text text := by
  cases text with
  | none => rfl
  | some _ => rfl

theorem optionalWord_eq (name : String) (n : Option UInt32) :
    optionalWord name n = optionalMember name (fun n => natural n.toNat) n := by
  cases n with
  | none => rfl
  | some _ => rfl

/-- A member that may be left out sets its field if it is there. -/
theorem readMembers_optionalMember {take : α → String → Json → Reading α} {name : String}
    {write : β → Json} (set : Option (Option β) → α)
    (hsome : ∀ value, take (set none) name (write value) = .ok (set (some (some value))))
    (x : Option β) :
    readMembers take (set none) (optionalMember name write x) = .ok (set (x.map some)) := by
  cases x with
  | none => rfl
  | some value =>
      rw [optionalMember, readMembers, hsome]
      rfl

/-- What taking a member does to one field: a member with the field's name is read into it,
    unless the field was known before, and any other leaves it as it is. -/
inductive Taken (field : String) (asField : Json → Reading β) (name : String) (json : Json)
    (before after : Option β) : Prop
  | own {value : β} (hname : name = field) (hbefore : before = none)
      (hread : asField json = .ok value) (hafter : after = some value)
  | other (hname : name ≠ field) (hafter : after = before)

/-- A field is known in the end if it was at first or if a member gave it, and every member with
    its name has been read. -/
theorem get_of_readMembers {take : α → String → Json → Reading α} {get : α → Option β}
    {field : String} {asField : Json → Reading β}
    (htake : ∀ known name json after, take known name json = .ok after →
      Taken field asField name json (get known) (get after))
    {known after : α} {entries : List (Literal × Json)}
    (hr : readMembers take known entries = .ok after) :
    (∀ json, (some field, json) ∈ entries → ∃ value, asField json = .ok value)
      ∧ ∀ value, get after = some value ↔ get known = some value
        ∨ ∃ json, (some field, json) ∈ entries ∧ asField json = .ok value := by
  induction entries generalizing known with
  | nil =>
      cases hr
      exact ⟨nofun, fun value => ⟨Or.inl, fun h => h.elim id nofun⟩⟩
  | cons first rest ih =>
      rcases first with ⟨_ | name, json⟩
      · cases hr
      · rw [readMembers] at hr
        cases ht : take known name json with
        | error error =>
            rw [ht] at hr
            cases hr
        | ok next =>
            rw [ht] at hr
            rcases ih hr with ⟨hread, hget⟩
            cases htake known name json next ht with
            | own hname hnone hvalue hnext =>
                subst hname
                simp only [List.mem_cons, Prod.mk.injEq, true_and, forall_eq_or_imp,
                  exists_eq_or_imp, hget, hnone, hnext, hvalue, reduceCtorEq, false_or,
                  Option.some.injEq, Except.ok.injEq, exists_eq', implies_true, and_true]
                exact hread
            | other hname hnext =>
                have hne : ∀ other, ¬(some field, other) = (some name, json) := fun other he =>
                  hname (Option.some.inj (Prod.mk.inj he).1).symm
                simp only [List.mem_cons, hne, false_or, hget, hnext, implies_true, and_true]
                exact hread

/-- A field is read only once. -/
theorem once_eq_ok_iff {before after : Option α} {json : Json} :
    once before read json = .ok after
      ↔ before = none ∧ ∃ value, read json = .ok value ∧ some value = after := by
  cases before with
  | some value => simp only [once, reduceCtorEq, false_and]
  | none => simp only [once, map_eq_ok_iff, true_and]

theorem map_once_eq_ok_iff {before : Option α} {json : Json} {f : Option α → β} {after : β} :
    (once before read json).map f = .ok after
      ↔ before = none ∧ ∃ value, read json = .ok value ∧ f (some value) = after := by
  rw [map_eq_ok_iff]
  constructor
  · rintro ⟨found, ho, rfl⟩
    rcases once_eq_ok_iff.mp ho with ⟨hnone, value, hr, rfl⟩
    exact ⟨hnone, value, hr, rfl⟩
  · rintro ⟨hnone, value, hr, rfl⟩
    exact ⟨some value, once_eq_ok_iff.mpr ⟨hnone, value, hr, rfl⟩, rfl⟩

/-! ### Plain shapes -/

theorem asWord_natural (n : UInt32) : asWord (natural n.toNat) = .ok n := by
  change asWord (.number (.integer (.ofNat n.toNat))) = .ok n
  rw [asWord, if_pos n.toNat_lt, UInt32.ofNat_toNat]

theorem join_map_some (x : Option α) : (x.map some).join = x := by
  cases x with
  | none => rfl
  | some _ => rfl

theorem asOptional_natural (n : UInt32) :
    asOptional asWord (natural n.toNat) = .ok (some n) :=
  congrArg (Except.map some) (asWord_natural n)

theorem asOptional_text (s : String) : asOptional asText (.text s) = .ok (some s) := rfl

/-- A list is read item by item. -/
theorem readItems_map_eq {items : List β} {value : β → α} {item : β → Json}
    (h : ∀ x ∈ items, read (item x) = .ok (value x)) :
    readItems read (items.map item) = .ok (items.map value) := by
  induction items with
  | nil => rfl
  | cons first rest ih =>
      rw [List.map_cons, readItems, h first List.mem_cons_self,
        ih fun x hm => h x (List.mem_cons_of_mem _ hm)]
      rfl

/-- A list is read back if all of its items are. -/
theorem readItems_map {values : List α} (h : ∀ value ∈ values, read (write value) = .ok value) :
    readItems read (values.map write) = .ok values := by
  rw [readItems_map_eq h, List.map_id']

/-- Entries whose values are read back are inserted one after the other. -/
theorem readEntries_map {table : Table String α} {entries : List (String × α)}
    (h : ∀ e ∈ entries, read (write e.2) = .ok e.2) :
    readEntries read table (entries.map fun e => (some e.1, write e.2))
      = .ok (entries.foldl (fun table e => table.insert e.1 e.2) table) := by
  induction entries generalizing table with
  | nil => rfl
  | cons first rest ih =>
      rw [List.map_cons, readEntries, h first List.mem_cons_self]
      exact ih fun e hm => h e (List.mem_cons_of_mem _ hm)

/-- A table is read back if everything in it is. -/
theorem asTable_toJson {table : Table String α}
    (h : ∀ key value, table.get? key = some value → read (write value) = .ok value) :
    asTable read (table.toJson write) = .ok table := by
  rw [Table.toJson, asTable,
    readEntries_map fun e hm => h e.1 e.2 (Table.get?_eq_some_iff.mpr hm)]
  -- Inserting the entries of a table into an empty one gives the table.
  refine congrArg Except.ok (Table.ext_get? fun key => ?_)
  rw [Table.get?_foldl_insert table.ordered, Table.get?_empty, Option.or_none]
  rfl

/-- Everything in a table that was read has been read. -/
theorem forall_of_asTable {P : α → Prop} (hread : ∀ json value, read json = .ok value → P value)
    {json : Json} {table : Table String α} (h : asTable read json = .ok table) :
    ∀ key value, table.get? key = some value → P value := by
  -- The entries go one by one into a table that is empty at first.
  have hentries : ∀ (entries : List (Literal × Json)) (before : Table String α),
      (∀ key value, before.get? key = some value → P value) →
      readEntries read before entries = .ok table →
      ∀ key value, table.get? key = some value → P value := by
    intro entries
    induction entries with
    | nil =>
        intro before hbefore hr
        cases hr
        exact hbefore
    | cons first rest ih =>
        intro before hbefore hr
        rcases first with ⟨_ | name, item⟩
        · cases hr
        · rw [readEntries] at hr
          cases hi : read item with
          | error error =>
              rw [hi] at hr
              cases hr
          | ok value =>
              rw [hi] at hr
              exact ih _ (Table.forall_insert (P := fun _ value => P value) hbefore
                (hread item value hi)) hr
  cases json with
  | object entries => exact hentries entries Table.empty nofun h
  | null => cases h
  | bool b => cases h
  | number n => cases h
  | string literal => cases h
  | array items => cases h
  | cut => cases h

/-! ### Depth -/

theorem arePlain_iff {depth : Nat} {items : List Json} :
    arePlain depth items = true ↔ ∀ item ∈ items, item.isPlain depth = true := by
  induction items with
  | nil => simp only [arePlain, List.not_mem_nil, false_imp_iff, implies_true]
  | cons first rest ih => simp only [arePlain, Bool.and_eq_true, ih, List.mem_cons,
      forall_eq_or_imp]

theorem membersArePlain_iff {depth : Nat} {entries : List (Literal × Json)} :
    membersArePlain depth entries = true
      ↔ ∀ e ∈ entries, e.1.isSome = true ∧ e.2.isPlain depth = true := by
  induction entries with
  | nil => simp only [membersArePlain, List.not_mem_nil, false_imp_iff, implies_true]
  | cons first rest ih =>
      rcases first with ⟨name, json⟩
      simp only [membersArePlain, Bool.and_eq_true, ih, List.mem_cons, forall_eq_or_imp]

end Json

end DnsZones
