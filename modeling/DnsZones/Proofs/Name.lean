import DnsZones.Address
import DnsZones.Name
import DnsZones.Proofs.Numeral
import DnsZones.Proofs.Path
import Mathlib.Data.List.DropRight
import Mathlib.Data.String.Basic

/-!
# Laws of Domain Names

What the syntax of names says about names that are put together.

A name is valid label by label, and its labels are the fields between its dots.
Writing one name in front of another with a dot between them therefore puts the
labels of the one in front of those of the other, as long as the first does not
end in a dot itself; if it does, an empty label comes in between, and no empty
text is a label. The dot that may end a name does not count as a separator, so
it makes no difference to the labels whether it is there.

A valid name has a dot at its end or none, never two. For such a zone name
`Name.qualify` does what one expects of it: it writes a relative name in front of
the zone's, with one dot between them and one at the end.

## Theorems

* `Name.isValid_iff`: A text is valid label by label, without looking at the dot at its end.
* `Name.isValid_below_iff`: When a name in front of a zone's is valid.
* `Name.qualify_of_relative`: A relative name as an absolute one.
* `Name.isValid_decimal`, `Name.isValid_reverseZone`: Names that are made of numbers.
-/

namespace DnsZones

namespace Text

variable {α : Type} [DecidableEq α] {separator : α}

/-- Whatever is no separator is in some field. -/
theorem exists_mem_split {x : α} {xs : List α} (hx : x ∈ xs) (hne : x ≠ separator) :
    ∃ field ∈ split separator xs, x ∈ field := by
  induction xs with
  | nil => cases hx
  | cons y ys ih =>
      rw [split]
      by_cases hy : y = separator
      · rw [if_pos hy]
        rcases List.mem_cons.mp hx with he | hm
        · exact absurd (he.trans hy) hne
        · rcases ih hm with ⟨field, hf, hxf⟩
          exact ⟨field, List.mem_cons_of_mem _ hf, hxf⟩
      · rw [if_neg hy]
        cases hs : split separator ys with
        | nil => exact absurd hs (split_ne_nil separator ys)
        | cons first fields =>
            rcases List.mem_cons.mp hx with rfl | hm
            · exact ⟨x :: first, List.mem_cons_self, List.mem_cons_self⟩
            · rcases ih hm with ⟨field, hf, hxf⟩
              rw [hs] at hf
              rcases List.mem_cons.mp hf with rfl | hf
              · exact ⟨y :: field, List.mem_cons_self, List.mem_cons_of_mem _ hxf⟩
              · exact ⟨field, List.mem_cons_of_mem _ hf, hxf⟩

end Text

namespace Name

variable {name zone : String}

/-! ### The dot at the end -/

@[simp]
theorem withoutFinalDot_append_dot (cs : List Char) : withoutFinalDot (cs ++ ['.']) = cs := by
  unfold withoutFinalDot
  rw [if_pos List.getLast?_concat, List.dropLast_concat]

theorem withoutFinalDot_append (cs : List Char) {ds : List Char} (h : ds ≠ []) :
    withoutFinalDot (cs ++ ds) = cs ++ withoutFinalDot ds := by
  unfold withoutFinalDot
  rw [List.getLast?_append_of_ne_nil _ h, List.dropLast_append_of_ne_nil h]
  split
  · rfl
  · rfl

theorem toList_of_isAbsolute (h : isAbsolute name = true) :
    name.toList = withoutFinalDot name.toList ++ ['.'] := by
  have hlast : name.toList.getLast? = some '.' := beq_iff_eq.mp h
  unfold withoutFinalDot
  rw [if_pos hlast]
  exact (List.dropLast_append_getLast? '.' hlast).symm

theorem withoutFinalDot_of_relative (h : isAbsolute name = false) :
    withoutFinalDot name.toList = name.toList := by
  have hlast : ¬name.toList.getLast? = some '.' := fun he => by
    rw [isAbsolute, he] at h
    cases h
  unfold withoutFinalDot
  rw [if_neg hlast]

/-! ### Labels -/

theorem isValid_iff :
    isValid name = true
      ↔ name.utf8ByteSize ≤ maxLength
        ∧ ∀ label ∈ Text.split '.' (withoutFinalDot name.toList), isLabel label = true := by
  unfold isValid labels
  rw [Bool.and_eq_true, decide_eq_true_iff, List.all_eq_true]

/-- A text that ends in a dot is not labels with dots between them. -/
theorem not_all_isLabel_of_final_dot (cs : List Char) :
    ¬∀ label ∈ Text.split '.' (cs ++ ['.']), isLabel label = true := by
  intro h
  have hempty : [] ∈ Text.split '.' (cs ++ ['.']) := by
    rw [Text.split_append_cons]
    exact List.mem_append_right _ (List.mem_singleton.mpr rfl)
  exact absurd (h [] hempty) (by decide)

/-- A valid name has no second dot at its end. -/
theorem getLast?_withoutFinalDot_ne (h : isValid name = true) :
    (withoutFinalDot name.toList).getLast? ≠ some '.' := by
  intro hlast
  have hlabels := (isValid_iff.mp h).2
  rw [← List.dropLast_append_getLast? '.' hlast] at hlabels
  exact not_all_isLabel_of_final_dot _ hlabels

theorem withoutFinalDot_ne_nil (h : isValid name = true) : withoutFinalDot name.toList ≠ [] := by
  intro hnil
  have hlabels := (isValid_iff.mp h).2
  rw [hnil] at hlabels
  exact absurd (hlabels [] (List.mem_singleton.mpr rfl)) (by decide)

theorem toList_ne_nil (h : isValid name = true) : name.toList ≠ [] := by
  intro hnil
  have hbody := withoutFinalDot_ne_nil h
  rw [hnil] at hbody
  exact hbody rfl

theorem isLabelChar_of_mem {c : Char} {label : List Char} (h : isLabel label = true)
    (hc : c ∈ label) : isLabelChar c = true := by
  unfold isLabel at h
  rw [Bool.and_eq_true] at h
  exact List.all_eq_true.mp h.2 c hc

/-- A valid name is made of dots and of what labels are made of. -/
theorem eq_dot_or_isLabelChar (h : isValid name = true) {c : Char} (hc : c ∈ name.toList) :
    c = '.' ∨ isLabelChar c = true := by
  by_cases hdot : c = '.'
  · exact Or.inl hdot
  · -- Without the dot at the end the name is labels, and whatever is no dot is in one of them.
    have hbody : c ∈ withoutFinalDot name.toList := by
      cases ha : isAbsolute name with
      | false => rwa [withoutFinalDot_of_relative ha]
      | true =>
          rw [toList_of_isAbsolute ha] at hc
          rcases List.mem_append.mp hc with hm | hm
          · exact hm
          · exact absurd (List.mem_singleton.mp hm) hdot
    rcases Text.exists_mem_split hbody hdot with ⟨label, hl, hm⟩
    exact Or.inr (isLabelChar_of_mem ((isValid_iff.mp h).2 label hl) hm)

theorem ne_origin_of_isValid (h : isValid name = true) : name ≠ origin := by
  rintro rfl
  exact absurd h (by decide)

/-! ### Names under a zone -/

theorem trimEndDots_of_isValid (h : isValid zone = true) :
    Text.trimEndDots zone = String.ofList (withoutFinalDot zone.toList) := by
  -- The name without its dot does not end in another one, so nothing more is dropped.
  have hbody : List.rdropWhile (· == '.') (withoutFinalDot zone.toList)
      = withoutFinalDot zone.toList := by
    rw [List.rdropWhile_eq_self_iff]
    intro hne he
    have hlast : (withoutFinalDot zone.toList).getLast hne = '.' := beq_iff_eq.mp he
    exact getLast?_withoutFinalDot_ne h (by rw [List.getLast?_eq_some_getLast hne, hlast])
  have hall : List.rdropWhile (· == '.') zone.toList = withoutFinalDot zone.toList := by
    cases ha : isAbsolute zone with
    | false =>
        rw [withoutFinalDot_of_relative ha] at hbody ⊢
        exact hbody
    | true =>
        conv_lhs => rw [toList_of_isAbsolute ha]
        rw [List.rdropWhile_concat_pos _ _ _ (by decide), hbody]
  exact congrArg String.ofList hall

/-- A relative name becomes absolute by writing it in front of the zone's name. -/
theorem qualify_of_relative (hzone : isValid zone = true) (hname : name ≠ origin)
    (h : isAbsolute name = false) :
    (qualify name zone).toList = name.toList ++ '.' :: withoutFinalDot zone.toList ++ ['.'] := by
  unfold qualify
  rw [if_neg hname, h, trimEndDots_of_isValid hzone]
  simp only [Bool.false_eq_true, if_false, String.toList_append, String.toList_ofList,
    List.append_assoc]
  rfl

theorem qualify_of_isAbsolute (hname : name ≠ origin) (h : isAbsolute name = true) :
    qualify name zone = name := by
  unfold qualify
  rw [if_neg hname, if_pos h]

/-- A valid name in front of a zone's, with one dot between them and one at the end, is valid
    unless it ends in a dot itself or the whole becomes too long. -/
theorem isValid_below_iff {text : String} (hzone : isValid zone = true)
    (hname : isValid name = true)
    (htext : text.toList = name.toList ++ '.' :: withoutFinalDot zone.toList ++ ['.']) :
    isValid text = true ↔ isAbsolute name = false ∧ text.utf8ByteSize ≤ maxLength := by
  -- The labels are those of the name, dot at its end included, and then those of the zone.
  have hlabels : Text.split '.' (withoutFinalDot text.toList)
      = Text.split '.' name.toList ++ Text.split '.' (withoutFinalDot zone.toList) := by
    rw [htext, withoutFinalDot_append_dot, Text.split_append_cons]
  rw [isValid_iff, hlabels, and_comm]
  refine and_congr_left fun _ => ?_
  constructor
  · -- A dot at the end of the name would leave an empty label before the one that follows.
    intro h
    refine Bool.eq_false_iff.mpr fun ha => ?_
    rw [toList_of_isAbsolute ha] at h
    exact not_all_isLabel_of_final_dot _ fun label hl => h label (List.mem_append_left _ hl)
  · intro ha label hl
    rcases List.mem_append.mp hl with hl | hl
    · rw [← withoutFinalDot_of_relative ha] at hl
      exact (isValid_iff.mp hname).2 label hl
    · exact (isValid_iff.mp hzone).2 label hl

/-! ### Names made of numbers -/

theorem utf8Len_le (cs : List Char) : String.utf8Len cs ≤ 4 * cs.length := by
  induction cs with
  | nil => exact Nat.le_refl 0
  | cons c cs ih =>
      have hc := Char.utf8Size_le_four c
      rw [String.utf8Len_cons, List.length_cons]
      omega

/-- Letters and digits alone make a label, unless they are too many. -/
theorem isLabel_of_forall {cs : List Char} (hne : cs ≠ []) (hlength : cs.length ≤ maxLabelLength)
    (h : ∀ c ∈ cs, isLetterOrDigit c = true) : isLabel cs = true := by
  have hhyphen : '-' ∉ cs := fun hm => absurd (h '-' hm) (by decide)
  have hhead : cs.head? ≠ some '-' := fun he => hhyphen (List.mem_of_head? he)
  have hlast : cs.getLast? ≠ some '-' := fun he => hhyphen (List.mem_of_getLast? he)
  unfold isLabel isLabelChar
  simp only [Bool.and_eq_true, Bool.not_eq_true', List.isEmpty_eq_false_iff, decide_eq_true_eq,
    bne_iff_ne, List.all_eq_true, Bool.or_eq_true]
  exact ⟨⟨⟨⟨hne, hlength⟩, hhead⟩, hlast⟩, fun c hc => Or.inl (h c hc)⟩

theorem isLetterOrDigit_of_mem_decimal {n : Nat} {c : Char}
    (h : c ∈ (Numeral.decimal n).toList) : isLetterOrDigit c = true := by
  have hc := Numeral.toNat_of_isDigit (Numeral.isDigit_of_mem_decimal h)
  unfold isLetterOrDigit
  simp only [hc.1, hc.2, decide_true, Bool.and_self, Bool.or_true]

theorem length_decimal_octet (octet : UInt8) :
    (Numeral.decimal octet.toNat).toList.length ≤ 3 := by
  have hlt : octet.toNat < 10 ^ 3 := octet.toNat_lt.trans (by decide)
  rw [Numeral.decimal, String.toList_ofList]
  exact (Nat.length_toDigits_le_iff (by decide) (by decide)).mpr hlt

theorem isLabel_decimal_octet (octet : UInt8) :
    isLabel (Numeral.decimal octet.toNat).toList = true := by
  refine isLabel_of_forall ?_ ?_ fun c => isLetterOrDigit_of_mem_decimal
  · rw [Numeral.decimal, String.toList_ofList]
    exact List.length_pos_iff.mp Nat.length_toDigits_pos
  · exact (length_decimal_octet octet).trans (by decide)

theorem split_decimal (n : Nat) :
    Text.split '.' (Numeral.decimal n).toList = [(Numeral.decimal n).toList] :=
  Text.split_of_not_mem fun hm => absurd (isLetterOrDigit_of_mem_decimal hm) (by decide)

theorem utf8ByteSize_decimal_octet (octet : UInt8) :
    (Numeral.decimal octet.toNat).utf8ByteSize ≤ 12 := by
  have hsize := utf8Len_le (Numeral.decimal octet.toNat).toList
  have hlength := length_decimal_octet octet
  rw [String.utf8Len_toList] at hsize
  omega

/-- An octet in decimal is a name. -/
theorem isValid_decimal (octet : UInt8) : isValid (Numeral.decimal octet.toNat) = true := by
  have hrelative : isAbsolute (Numeral.decimal octet.toNat) = false := by
    refine beq_eq_false_iff_ne.mpr fun hlast => ?_
    exact absurd (isLetterOrDigit_of_mem_decimal (List.mem_of_getLast? hlast)) (by decide)
  rw [isValid_iff, withoutFinalDot_of_relative hrelative, split_decimal]
  refine ⟨(utf8ByteSize_decimal_octet octet).trans (by decide), fun label hl => ?_⟩
  rw [List.mem_singleton.mp hl]
  exact isLabel_decimal_octet octet

/-- The zone of an address's pointers has a valid name. -/
theorem isValid_reverseZone (address : IPv4) : isValid address.reverseZone = true := by
  have hsizes := And.intro (utf8ByteSize_decimal_octet address.third)
    (And.intro (utf8ByteSize_decimal_octet address.second)
      (utf8ByteSize_decimal_octet address.first))
  have hlist : address.reverseZone.toList
      = ((Numeral.decimal address.third.toNat).toList ++ '.' ::
          ((Numeral.decimal address.second.toNat).toList ++ '.' ::
            ((Numeral.decimal address.first.toNat).toList ++ '.' :: "in-addr.arpa".toList)))
        ++ ['.'] := by
    simp [IPv4.reverseZone]
  rw [isValid_iff, hlist, withoutFinalDot_append_dot]
  constructor
  · have hdot : ".".utf8ByteSize = 1 := by decide
    have hend : ".in-addr.arpa.".utf8ByteSize = 14 := by decide
    rw [IPv4.reverseZone, String.utf8ByteSize_append, String.utf8ByteSize_append,
      String.utf8ByteSize_append, String.utf8ByteSize_append, String.utf8ByteSize_append, hdot,
      hend]
    unfold maxLength
    omega
  · intro label hl
    simp only [Text.split_append_cons, split_decimal, List.mem_append, List.mem_singleton] at hl
    have hfixed : ∀ label ∈ Text.split '.' "in-addr.arpa".toList, isLabel label = true := by decide
    rcases hl with rfl | rfl | rfl | hl
    · exact isLabel_decimal_octet _
    · exact isLabel_decimal_octet _
    · exact isLabel_decimal_octet _
    · exact hfixed label hl

end Name

end DnsZones
