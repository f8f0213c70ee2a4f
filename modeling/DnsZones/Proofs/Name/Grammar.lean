import DnsZones.Proofs.Name

/-!
# The Grammar of Domain Names

Which texts are names, said by how a name is put together.

A name is one label or more with single dots between them, and perhaps a dot at the
end. The check goes the other way: it takes one dot off the end, divides what is left
at its dots and looks at every field. That both come to the same is no matter of
course. A second dot at the end, two dots in a row and a text of dots alone all leave
an empty field, and only because no label is empty does the check refuse them. Since a
label has no dot in it, the fields of a name are the labels that it was put together
from, so a name has its labels in one way, and an absolute name has as many dots as
labels.

## Main definitions

* `Name.IsHostLabel`: What a label is.
* `Name.IsSpelled`: Labels with single dots between them.
* `Name.IsName`: The same with a dot at the end or without.

## Theorems

* `Name.isSpelled_iff`: Dividing a text gives the labels that it was put together from.
* `Name.isName_iff`: A name has its labels in one way.
* `Name.IsSpelled.count_dot`: Labels have one dot less between them.
* `Name.isValid_iff_isName`: The check accepts the grammar, and nothing else.
-/

namespace DnsZones

namespace Text

variable {α : Type} [DecidableEq α] {separator : α}

/-- Where the first field ends, the list ends too, or a separator and the other fields follow. -/
theorem of_split_eq_cons {field : List α} {fields : List (List α)} {xs : List α}
    (h : split separator xs = field :: fields) :
    (xs = field ∧ fields = [])
      ∨ ∃ rest, xs = field ++ separator :: rest ∧ split separator rest = fields := by
  induction xs generalizing field with
  | nil =>
      cases h
      exact Or.inl ⟨rfl, rfl⟩
  | cons x xs ih =>
      rw [split] at h
      by_cases hx : x = separator
      · rw [if_pos hx] at h
        rcases List.cons.inj h with ⟨rfl, hrest⟩
        exact Or.inr ⟨xs, by rw [hx, List.nil_append], hrest⟩
      · rw [if_neg hx] at h
        cases hs : split separator xs with
        | nil => exact absurd hs (split_ne_nil separator xs)
        | cons first others =>
            rw [hs] at h
            rcases List.cons.inj h with ⟨rfl, rfl⟩
            rcases ih hs with ⟨rfl, hnone⟩ | ⟨rest, rfl, hrest⟩
            · exact Or.inl ⟨rfl, hnone⟩
            · exact Or.inr ⟨rest, rfl, hrest⟩

end Text

namespace Name

variable {name : String} {label cs : List Char} {labels : List (List Char)} {absolute : Bool}

/-! ### The grammar -/

/-- A label: 1 to 63 letters, digits and hyphens, of which neither the first nor the last is a
    hyphen. -/
structure IsHostLabel (label : List Char) : Prop where
  nonempty : 1 ≤ label.length
  short : label.length ≤ 63
  chars : ∀ c ∈ label, ('A' ≤ c ∧ c ≤ 'Z') ∨ ('a' ≤ c ∧ c ≤ 'z') ∨ ('0' ≤ c ∧ c ≤ '9') ∨ c = '-'
  front : label.head? ≠ some '-'
  back : label.getLast? ≠ some '-'

/-- One label or more, with single dots between them. -/
inductive IsSpelled : List (List Char) → List Char → Prop
  | one {label : List Char} (h : IsHostLabel label) : IsSpelled [label] label
  | cons {label rest : List Char} {labels : List (List Char)} (h : IsHostLabel label)
      (hrest : IsSpelled labels rest) : IsSpelled (label :: labels) (label ++ '.' :: rest)

/-- A name of some labels, with a dot at its end if it is absolute. -/
inductive IsName (labels : List (List Char)) : Bool → List Char → Prop
  | relative {cs : List Char} (h : IsSpelled labels cs) : IsName labels false cs
  | absolute {cs : List Char} (h : IsSpelled labels cs) : IsName labels true (cs ++ ['.'])

/-! ### Labels -/

theorem isLabelChar_iff {c : Char} :
    isLabelChar c = true
      ↔ ('A' ≤ c ∧ c ≤ 'Z') ∨ ('a' ≤ c ∧ c ≤ 'z') ∨ ('0' ≤ c ∧ c ≤ '9') ∨ c = '-' := by
  have hle : ∀ a b : Char, a ≤ b ↔ a.toNat ≤ b.toNat := fun a b => Iff.rfl
  unfold isLabelChar isLetterOrDigit
  simp only [Bool.or_eq_true, Bool.and_eq_true, decide_eq_true_eq, beq_iff_eq, hle]
  rw [or_assoc, or_assoc, or_left_comm]

theorem isLabel_iff : isLabel label = true ↔ IsHostLabel label := by
  have hempty : label.isEmpty = false ↔ 1 ≤ label.length := by
    rw [List.isEmpty_eq_false_iff, ← List.length_pos_iff]
    rfl
  unfold isLabel maxLabelLength
  simp only [Bool.and_eq_true, Bool.not_eq_true', hempty, decide_eq_true_eq, bne_iff_ne,
    List.all_eq_true, isLabelChar_iff]
  constructor
  · rintro ⟨⟨⟨⟨hnonempty, hshort⟩, hfront⟩, hback⟩, hchars⟩
    exact ⟨hnonempty, hshort, hchars, hfront, hback⟩
  · rintro ⟨hnonempty, hshort, hchars, hfront, hback⟩
    exact ⟨⟨⟨⟨hnonempty, hshort⟩, hfront⟩, hback⟩, hchars⟩

/-- A label has no dot in it. -/
theorem IsHostLabel.not_mem_dot (h : IsHostLabel label) : '.' ∉ label := fun hm =>
  absurd (isLabelChar_of_mem (isLabel_iff.mpr h) hm) (by decide)

/-! ### Names -/

/-- Dividing a text at its dots gives back the labels that it was put together from. -/
theorem isSpelled_iff :
    IsSpelled labels cs ↔ Text.split '.' cs = labels ∧ ∀ label ∈ labels, isLabel label = true := by
  constructor
  · intro h
    induction h with
    | one h =>
        refine ⟨Text.split_of_not_mem h.not_mem_dot, ?_⟩
        rw [List.forall_mem_singleton]
        exact isLabel_iff.mpr h
    | cons h _ ih =>
        rw [Text.split_append_cons, Text.split_of_not_mem h.not_mem_dot, ih.1]
        exact ⟨rfl, List.forall_mem_cons.mpr ⟨isLabel_iff.mpr h, ih.2⟩⟩
  · rintro ⟨hsplit, hlabels⟩
    induction labels generalizing cs with
    | nil => exact absurd hsplit (Text.split_ne_nil '.' cs)
    | cons label labels ih =>
        rcases List.forall_mem_cons.mp hlabels with ⟨hlabel, hlabels⟩
        rcases Text.of_split_eq_cons hsplit with ⟨rfl, rfl⟩ | ⟨rest, rfl, hrest⟩
        · exact .one (isLabel_iff.mp hlabel)
        · exact .cons (isLabel_iff.mp hlabel) (ih hrest hlabels)

/-- A name has its labels in one way, and whether it is absolute shows at its end. -/
theorem isName_iff :
    IsName labels absolute name.toList
      ↔ isAbsolute name = absolute ∧ Name.labels name = labels
        ∧ ∀ label ∈ labels, isLabel label = true := by
  have hrelative : isAbsolute name = false → Name.labels name = Text.split '.' name.toList :=
    fun ha => by rw [Name.labels, withoutFinalDot_of_relative ha]
  constructor
  · intro h
    generalize hcs : name.toList = cs at h
    cases h with
    | relative h =>
        rcases isSpelled_iff.mp h with ⟨hsplit, hlabels⟩
        -- With a dot at the end the last field would be empty.
        have ha : isAbsolute name = false := by
          refine Bool.eq_false_iff.mpr fun ha => ?_
          rw [← hsplit, ← hcs, toList_of_isAbsolute ha] at hlabels
          exact not_all_isLabel_of_final_dot _ hlabels
        exact ⟨ha, by rw [hrelative ha, hcs, hsplit], hlabels⟩
    | absolute h =>
        rcases isSpelled_iff.mp h with ⟨hsplit, hlabels⟩
        refine ⟨?_, by rw [Name.labels, hcs, withoutFinalDot_append_dot, hsplit], hlabels⟩
        rw [isAbsolute, hcs, List.getLast?_concat]
        rfl
  · rintro ⟨rfl, hsplit, hlabels⟩
    cases ha : isAbsolute name with
    | false => exact .relative (isSpelled_iff.mpr ⟨(hrelative ha).symm.trans hsplit, hlabels⟩)
    | true =>
        rw [toList_of_isAbsolute ha]
        exact .absolute (isSpelled_iff.mpr ⟨hsplit, hlabels⟩)

/-- There is one dot less between labels than there are labels. -/
theorem IsSpelled.count_dot (h : IsSpelled labels cs) : cs.count '.' + 1 = labels.length := by
  induction h with
  | one h => rw [List.count_eq_zero.mpr h.not_mem_dot, List.length_singleton]
  | cons h _ ih =>
      rw [List.count_append, List.count_cons_self, List.count_eq_zero.mpr h.not_mem_dot,
        List.length_cons, ← ih, Nat.zero_add]

/-- **The syntax of names.** The check accepts a text exactly if it has at most 255 bytes and is
    labels with single dots between them, perhaps with one more dot at the end. A text is fully
    qualified exactly if it is such a name with the dot at its end and at least two labels. -/
theorem isValid_iff_isName (name : String) :
    (isValid name = true
        ↔ name.utf8ByteSize ≤ 255 ∧ ∃ labels absolute, IsName labels absolute name.toList)
      ∧ (isFullyQualified name = true
        ↔ name.utf8ByteSize ≤ 255 ∧ ∃ labels, IsName labels true name.toList
          ∧ 2 ≤ labels.length) := by
  have hvalid : isValid name = true
      ↔ name.utf8ByteSize ≤ 255 ∧ ∃ labels absolute, IsName labels absolute name.toList := by
    rw [isValid_iff]
    refine and_congr_right fun _ => ⟨fun hlabels => ?_, ?_⟩
    · exact ⟨_, _, isName_iff.mpr ⟨rfl, rfl, hlabels⟩⟩
    · rintro ⟨labels, absolute, h⟩
      rcases isName_iff.mp h with ⟨-, rfl, hlabels⟩
      exact hlabels
  refine ⟨hvalid, ?_⟩
  -- An absolute name has as many dots as labels.
  have hcount : ∀ {labels}, IsName labels true name.toList →
      name.toList.count '.' = labels.length := by
    intro labels h
    generalize name.toList = cs at h
    cases h with
    | absolute h => rw [List.count_append, List.count_singleton_self, h.count_dot]
  unfold isFullyQualified
  rw [Bool.and_eq_true, Bool.and_eq_true, hvalid, decide_eq_true_eq]
  constructor
  · rintro ⟨⟨⟨hsize, labels, absolute, h⟩, ha⟩, hdots⟩
    obtain rfl : absolute = true := (isName_iff.mp h).1.symm.trans ha
    exact ⟨hsize, labels, h, hcount h ▸ hdots⟩
  · rintro ⟨hsize, labels, h, hlabels⟩
    exact ⟨⟨⟨hsize, labels, true, h⟩, (isName_iff.mp h).1⟩, (hcount h).symm ▸ hlabels⟩

end Name

end DnsZones
