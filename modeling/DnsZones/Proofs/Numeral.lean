import DnsZones.Numeral
import Mathlib.Algebra.Group.Nat.Defs

/-!
# Laws of Numerals

What a number written in decimal is read as.

Writing a number gives digits and nothing else, and reading digits gives the
number that they denote, so a number that was written is read again. Zeros in
front do not count when a numeral is read, but they count in front of nothing
else: a numeral after another one shifts it by as many places as it has.

The number of places is what the order of serial numbers hangs on. A numeral has
the width that was asked for as long as the number fits, and more afterwards.

What can be read at all is said once, by the numerals that are accepted: digits
only, or one plus sign and then digits.

## Main definitions

* `Numeral.Denotes`: Digits and the number that they denote.
* `Numeral.IsWord`: The numerals of 32 bit unsigned integers.

## Theorems

* `Numeral.digits?_eq_some`: Digits are read as the number that they denote.
* `Numeral.digits?_eq_some_iff`, `Numeral.checkWord_eq_ok_iff`: Nothing else is read.
* `Numeral.decimal_injective`: Two numbers are not written alike.
* `Numeral.head?_toDigits_ne_zero`: A numeral without zeros in front.
* `Numeral.length_decimal`: The number of digits.
* `Numeral.value_append_padded`: A padded numeral after another one.
-/

namespace DnsZones

namespace Numeral

variable {c : Char} {cs : List Char} {m n k width : Nat}

theorem toNat_of_isDigit (h : c.isDigit = true) : '0'.toNat ≤ c.toNat ∧ c.toNat ≤ '9'.toNat := by
  simp only [Char.isDigit, ge_iff_le, Bool.and_eq_true, decide_eq_true_eq] at h
  exact ⟨UInt32.le_iff_toNat_le.mp h.1, UInt32.le_iff_toNat_le.mp h.2⟩

/-- Digits are read as the number that they denote after the digits already read. -/
theorem digitsFrom?_eq_some (h : ∀ c ∈ cs, c.isDigit = true) (n : Nat) :
    digitsFrom? n cs = some (Nat.ofDigitChars 10 cs n) := by
  induction cs generalizing n with
  | nil => rw [digitsFrom?, Nat.ofDigitChars_nil]
  | cons c cs ih =>
      have hc : digit? c = some (c.toNat - '0'.toNat) :=
        if_pos (toNat_of_isDigit (h c List.mem_cons_self))
      rw [digitsFrom?, hc, Nat.ofDigitChars_cons]
      exact ih (fun d hd => h d (List.mem_cons_of_mem _ hd)) _

/-- Digits are read as the number that they denote. -/
theorem digits?_eq_some (hne : cs ≠ []) (h : ∀ c ∈ cs, c.isDigit = true) :
    digits? cs = some (Nat.ofDigitChars 10 cs 0) := by
  cases cs with
  | nil => exact absurd rfl hne
  | cons c cs => exact digitsFrom?_eq_some h 0

/-! ### What is read -/

/-- Characters that are all digits, one of them at least, and the number that they denote. -/
structure Denotes (cs : List Char) (n : Nat) : Prop where
  nonempty : cs ≠ []
  digits : ∀ c ∈ cs, c.isDigit = true
  value : Nat.ofDigitChars 10 cs 0 = n

instance (cs : List Char) (n : Nat) : Decidable (Denotes cs n) :=
  decidable_of_iff (cs ≠ [] ∧ cs.all Char.isDigit = true ∧ Nat.ofDigitChars 10 cs 0 = n)
    ⟨fun h => ⟨h.1, List.all_eq_true.mp h.2.1, h.2.2⟩,
      fun h => ⟨h.nonempty, List.all_eq_true.mpr h.digits, h.value⟩⟩

theorem isDigit_of_digit? {d : Nat} (h : digit? c = some d) : c.isDigit = true := by
  unfold digit? at h
  split at h
  · next hc =>
      rw [Char.isDigit, Bool.and_eq_true, decide_eq_true_eq, decide_eq_true_eq]
      exact ⟨UInt32.le_iff_toNat_le.mpr hc.1, UInt32.le_iff_toNat_le.mpr hc.2⟩
  · cases h

theorem isDigit_of_digitsFrom? (h : digitsFrom? m cs = some n) : ∀ c ∈ cs, c.isDigit = true := by
  induction cs generalizing m with
  | nil => exact nofun
  | cons c cs ih =>
      rw [digitsFrom?] at h
      split at h
      · next hc =>
          intro d hd
          rcases List.mem_cons.mp hd with rfl | hd
          · exact isDigit_of_digit? hc
          · exact ih h d hd
      · cases h

/-- Digits are read as the number that they denote, and nothing else is read. -/
theorem digits?_eq_some_iff : digits? cs = some n ↔ Denotes cs n := by
  constructor
  · intro h
    cases cs with
    | nil => cases h
    | cons c cs =>
        have hdigits := isDigit_of_digitsFrom? h
        have hread := digits?_eq_some (List.cons_ne_nil c cs) hdigits
        exact ⟨List.cons_ne_nil c cs, hdigits, Option.some.inj (hread.symm.trans h)⟩
  · intro h
    rw [digits?_eq_some h.nonempty h.digits, h.value]

/-- A sign is read over, but only one and only a plus. -/
theorem unsigned?_eq_some_iff :
    unsigned? cs = some n ↔ Denotes cs n ∨ ∃ ds, cs = '+' :: ds ∧ Denotes ds n := by
  -- The sign is no digit, so the two forms exclude each other.
  have hsign : ∀ ds, ¬Denotes ('+' :: ds) n := fun ds h =>
    absurd (h.digits '+' List.mem_cons_self) (by decide)
  unfold unsigned?
  split
  · next ds =>
      rw [digits?_eq_some_iff]
      constructor
      · exact fun h => Or.inr ⟨ds, rfl, h⟩
      · rintro (h | ⟨es, he, h⟩)
        · exact absurd h (hsign ds)
        · cases he
          exact h
  · next hne =>
      rw [digits?_eq_some_iff]
      constructor
      · exact Or.inl
      · rintro (h | ⟨ds, he, -⟩)
        · exact h
        · exact absurd he (hne ds)

/-- The numerals of 32 bit unsigned integers: digits, perhaps after one plus sign. -/
def IsWord (text : String) : Prop :=
  ∃ n, n < UInt32.size
    ∧ (Denotes text.toList n ∨ ∃ cs, text.toList = '+' :: cs ∧ Denotes cs n)

theorem exists_word?_iff {text : String} : (∃ word, word? text = some word) ↔ IsWord text := by
  simp only [IsWord, ← unsigned?_eq_some_iff]
  constructor
  · rintro ⟨word, h⟩
    unfold word? at h
    split at h
    · next n hn =>
        split at h
        · next hlt => exact ⟨n, hlt, hn⟩
        · cases h
    · cases h
  · rintro ⟨n, hlt, hn⟩
    exact ⟨UInt32.ofNat n, by simp only [word?, hn, if_pos hlt]⟩

/-- A field that must hold a 32 bit unsigned integer holds a numeral of one. -/
theorem checkWord_eq_ok_iff {field text : String} :
    (∃ word, checkWord field text = .ok word) ↔ IsWord text := by
  rw [← exists_word?_iff]
  unfold checkWord
  cases word? text with
  | none => exact ⟨nofun, nofun⟩
  | some word => exact ⟨fun _ => ⟨word, rfl⟩, fun _ => ⟨word, rfl⟩⟩

/-- A numeral of a 32 bit unsigned integer has no other characters than digits and the sign. -/
theorem IsWord.eq_plus_or_isDigit {text : String} (h : IsWord text) (hc : c ∈ text.toList) :
    c = '+' ∨ c.isDigit = true := by
  rcases h with ⟨n, -, h | ⟨cs, htext, h⟩⟩
  · exact Or.inr (h.digits c hc)
  · rw [htext] at hc
    exact (List.mem_cons.mp hc).imp_right (h.digits c)

/-! ### Numbers in decimal -/

theorem isDigit_of_mem_decimal (h : c ∈ (decimal n).toList) : c.isDigit = true := by
  rw [decimal, String.toList_ofList] at h
  exact Nat.isDigit_of_mem_toDigits (by decide) (by decide) h

theorem value_decimal (n : Nat) : Nat.ofDigitChars 10 (decimal n).toList 0 = n := by
  rw [decimal, String.toList_ofList, Nat.ofDigitChars_ten_toDigits]

/-- Two numbers are not written alike. -/
theorem decimal_injective (h : decimal m = decimal n) : m = n := by
  rw [← value_decimal m, h, value_decimal]

/-- A number in decimal that is not zero does not begin with a zero. -/
theorem head?_toDigits_ne_zero (h : 0 < n) : (Nat.toDigits 10 n).head? ≠ some '0' := by
  -- By strong induction, since a numeral grows at its end.
  induction n using Nat.strongRecOn with
  | ind n ih =>
      by_cases hlt : n < 10
      · rw [Nat.toDigits_of_lt_base hlt, List.head?_cons, ne_eq, Option.some.injEq,
          Nat.digitChar_eq_zero]
        omega
      · have hfirst := ih (n / 10) (by omega) (by omega)
        rw [Nat.toDigits_of_base_le (by decide) (by omega), List.head?_append]
        rcases List.exists_cons_of_ne_nil (Nat.toDigits_ne_nil (b := 10) (n := n / 10)) with
          ⟨c, cs, hcs⟩
        rw [hcs] at hfirst ⊢
        exact hfirst

/-- The number of digits of a number between two powers of ten. -/
theorem length_decimal (hl : 10 ^ k ≤ n) (hu : n < 10 ^ (k + 1)) :
    (decimal n).toList.length = k + 1 := by
  rw [decimal, String.toList_ofList]
  have hle := (Nat.length_toDigits_le_iff (by decide) (Nat.succ_pos k)).mpr hu
  have hpos : 0 < (Nat.toDigits 10 n).length := Nat.length_toDigits_pos
  rcases Nat.eq_zero_or_pos k with rfl | hk
  · omega
  · have hgt := mt (Nat.length_toDigits_le_iff (by decide) hk).mp (Nat.not_lt.mpr hl)
    omega

/-! ### Padded numbers -/

theorem isDigit_of_mem_padded (h : c ∈ (padded width n).toList) : c.isDigit = true := by
  rw [padded, String.toList_ofList, List.mem_append] at h
  rcases h with h | h
  · rw [(List.mem_replicate.mp h).2]
    rfl
  · exact Nat.isDigit_of_mem_toDigits (by decide) (by decide) h

theorem length_padded (width n : Nat) :
    (padded width n).toList.length = max width (Nat.toDigits 10 n).length := by
  rw [padded, String.toList_ofList, List.length_append, List.length_replicate]
  omega

theorem length_padded_of_lt (hw : 0 < width) (h : n < 10 ^ width) :
    (padded width n).toList.length = width := by
  have hle := (Nat.length_toDigits_le_iff (by decide) hw).mpr h
  rw [length_padded]
  omega

theorem lt_length_padded (hw : 0 < width) (h : 10 ^ width ≤ n) :
    width < (padded width n).toList.length := by
  have hgt := mt (Nat.length_toDigits_le_iff (by decide) hw).mp (Nat.not_lt.mpr h)
  rw [length_padded]
  omega

/-- A larger number takes no fewer places. -/
theorem length_padded_mono (h : m ≤ n) :
    (padded width m).toList.length ≤ (padded width n).toList.length := by
  -- The length is the least power of ten above the number.
  have hle : (Nat.toDigits 10 m).length ≤ (Nat.toDigits 10 n).length :=
    (Nat.length_toDigits_le_iff (by decide) Nat.length_toDigits_pos).mpr (Nat.lt_of_le_of_lt h
      ((Nat.length_toDigits_le_iff (by decide) Nat.length_toDigits_pos).mp (Nat.le_refl _)))
  rw [length_padded, length_padded]
  omega

/-- A padded number after another one shifts that by as many places as it has. -/
theorem value_append_padded (cs : List Char) (width n : Nat) :
    Nat.ofDigitChars 10 (cs ++ (padded width n).toList) 0
      = 10 ^ (padded width n).toList.length * Nat.ofDigitChars 10 cs 0 + n := by
  have hvalue : Nat.ofDigitChars 10 (padded width n).toList 0 = n := by
    rw [padded, String.toList_ofList, Nat.ofDigitChars_append, Nat.ofDigitChars_replicate_zero,
      Nat.mul_zero, Nat.ofDigitChars_ten_toDigits]
  rw [Nat.ofDigitChars_append, Nat.ofDigitChars_eq_ofDigitChars_zero, hvalue]

theorem padded_injective (h : padded width m = padded width n) : m = n := by
  have hm := value_append_padded [] width m
  have hn := value_append_padded [] width n
  rw [Nat.ofDigitChars_nil, Nat.mul_zero, Nat.zero_add] at hm hn
  rw [← hm, h, hn]

end Numeral

end DnsZones
