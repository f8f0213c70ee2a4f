/-!
# Text

The few operations on text that records and zone files need.

Text is read as a list of characters wherever a rule is about characters, so
that a rule can be stated by recursion on the list. Three notions of size occur
and are kept apart: characters (columns of a zone file), UTF-8 bytes (length
limits), and labels (in `DnsZones.Name`).

Letter case is changed in ASCII only. A record type or a host name has no other
letters, and any other text passes through unchanged. Blank characters, on the
other hand, are those of the Unicode property White_Space, because text trimmed
here was typed by a person.

## Main definitions

* `isBlank`, `trim`: White space, and text without it at either end.
* `upper`, `lower`: Case conversion of the ASCII letters.
* `split`: The fields between separators.
* `padRight`, `padLeft`, `padCenter`: Text filled up to a width in characters.

## Theorems

* `upper_upper`: Converting to upper case twice is converting once.
* `trim_upper_trim`: Trimmed text in upper case has no white space at its ends.
-/

namespace DnsZones

namespace Text

/-- The characters with the Unicode property White_Space. -/
def isBlank (c : Char) : Bool :=
  let n := c.toNat
  (0x09 ≤ n && n ≤ 0x0D) || n == 0x20 || n == 0x85 || n == 0xA0 || n == 0x1680
    || (0x2000 ≤ n && n ≤ 0x200A) || n == 0x2028 || n == 0x2029 || n == 0x202F
    || n == 0x205F || n == 0x3000

/-- A list without the blank characters at its ends. -/
def trimChars (cs : List Char) : List Char :=
  ((cs.dropWhile isBlank).reverse.dropWhile isBlank).reverse

/-- Text without the white space at its ends. -/
def trim (s : String) : String := String.ofList (trimChars s.toList)

/-- The upper case form of an ASCII lower case letter, and any other character itself. -/
def upperChar (c : Char) : Char :=
  if 'a'.toNat ≤ c.toNat ∧ c.toNat ≤ 'z'.toNat then Char.ofNat (c.toNat - 32) else c

/-- The lower case form of an ASCII upper case letter, and any other character itself. -/
def lowerChar (c : Char) : Char :=
  if 'A'.toNat ≤ c.toNat ∧ c.toNat ≤ 'Z'.toNat then Char.ofNat (c.toNat + 32) else c

/-- Text with its ASCII letters in upper case. -/
def upper (s : String) : String := String.ofList (s.toList.map upperChar)

/-- Text with its ASCII letters in lower case. -/
def lower (s : String) : String := String.ofList (s.toList.map lowerChar)

/-- The fields of a list between separators: one more than there are separators. -/
def split {α : Type} [DecidableEq α] (separator : α) : List α → List (List α)
  | [] => [[]]
  | x :: xs =>
    if x = separator then [] :: split separator xs
    else
      match split separator xs with
      | [] => [[x]]
      | field :: fields => (x :: field) :: fields

/-- So many spaces. -/
def spaces (n : Nat) : String := String.ofList (List.replicate n ' ')

/-- Text followed by spaces up to a width in characters, never cut. -/
def padRight (width : Nat) (s : String) : String := s ++ spaces (width - s.length)

/-- Text after spaces up to a width in characters, never cut. -/
def padLeft (width : Nat) (s : String) : String := spaces (width - s.length) ++ s

/-- Text between spaces up to a width in characters; an odd space goes to the right. -/
def padCenter (width : Nat) (s : String) : String :=
  let missing := width - s.length
  spaces (missing / 2) ++ s ++ spaces (missing - missing / 2)

/-- The first characters of a text. -/
def first (count : Nat) (s : String) : String := String.ofList (s.toList.take count)

/-- Text without the dots at its end. -/
def trimEndDots (s : String) : String :=
  String.ofList (s.toList.reverse.dropWhile (· == '.')).reverse

/-- What dropping blanks from the front leaves does not begin with one. -/
theorem dropWhile_dropWhile {α : Type} (p : α → Bool) (xs : List α) :
    (xs.dropWhile p).dropWhile p = xs.dropWhile p := by
  induction xs with
  | nil => rfl
  | cons x xs ih =>
      cases h : p x with
      | true => simp only [List.dropWhile, h, ih]
      | false => simp only [List.dropWhile, h]

/-- Dropping from the front commutes with a map that does not change the test. -/
theorem dropWhile_map {α β : Type} (p : β → Bool) (q : α → Bool) (f : α → β)
    (h : ∀ x, p (f x) = q x) (xs : List α) :
    (xs.map f).dropWhile p = (xs.dropWhile q).map f := by
  induction xs with
  | nil => rfl
  | cons x xs ih =>
      cases hq : q x with
      | true => simp only [List.map, List.dropWhile, h, hq, ih]
      | false => simp only [List.map, List.dropWhile, h, hq]

/-- A list that does not begin with a blank still does not after losing items at its end. -/
theorem dropWhile_reverse_dropWhile {α : Type} (p : α → Bool) (xs : List α)
    (h : xs.dropWhile p = xs) :
    ((xs.reverse.dropWhile p).reverse).dropWhile p = (xs.reverse.dropWhile p).reverse := by
  cases xs with
  | nil => rfl
  | cons x xs =>
      have hx : p x = false := by
        cases hp : p x with
        | false => rfl
        | true =>
            simp only [List.dropWhile, hp] at h
            have hle : (xs.dropWhile p).length ≤ xs.length := (List.dropWhile_sublist p).length_le
            rw [h, List.length_cons] at hle
            omega
      -- The first item survives at the far end, so the reversed rest begins with it.
      have hkeep : (((x :: xs).reverse).dropWhile p) = (xs.reverse.dropWhile p) ++ [x] := by
        rw [List.reverse_cons]
        generalize xs.reverse = ys
        induction ys with
        | nil => simp [List.dropWhile, hx]
        | cons y ys ih =>
            cases hy : p y with
            | true => simp only [List.cons_append, List.dropWhile, hy, ih]
            | false => simp only [List.cons_append, List.dropWhile, hy]
      rw [hkeep, List.reverse_append]
      simp only [List.reverse_cons, List.reverse_nil, List.nil_append, List.cons_append,
        List.dropWhile, hx]

/-- Trimming characters twice is trimming them once. -/
theorem trimChars_trimChars (cs : List Char) : trimChars (trimChars cs) = trimChars cs := by
  have hfront := dropWhile_reverse_dropWhile isBlank (cs.dropWhile isBlank)
    (dropWhile_dropWhile isBlank cs)
  simp only [trimChars] at hfront ⊢
  rw [hfront, List.reverse_reverse, dropWhile_dropWhile]

theorem toNat_ofNat_ascii {n : Nat} (h : n < 128) : (Char.ofNat n).toNat = n := by
  have hv : n.isValidChar := Or.inl (by omega)
  rw [Char.ofNat, dif_pos hv]
  rfl

/-- No upper case letter has an upper case form other than itself. -/
theorem upperChar_upperChar (c : Char) : upperChar (upperChar c) = upperChar c := by
  by_cases h : 'a'.toNat ≤ c.toNat ∧ c.toNat ≤ 'z'.toNat
  · have hn : (Char.ofNat (c.toNat - 32)).toNat = c.toNat - 32 := by
      refine toNat_ofNat_ascii ?_
      have := h.2
      have hz : 'z'.toNat = 122 := rfl
      omega
    have hnot : ¬('a'.toNat ≤ (Char.ofNat (c.toNat - 32)).toNat
        ∧ (Char.ofNat (c.toNat - 32)).toNat ≤ 'z'.toNat) := by
      rw [hn]
      have hz : 'z'.toNat = 122 := rfl
      have ha : 'a'.toNat = 97 := rfl
      omega
    simp only [upperChar, if_pos h, if_neg hnot]
  · simp only [upperChar, if_neg h]

/-- Changing case makes no character blank or unblank. -/
theorem isBlank_upperChar (c : Char) : isBlank (upperChar c) = isBlank c := by
  by_cases h : 'a'.toNat ≤ c.toNat ∧ c.toNat ≤ 'z'.toNat
  · have hz : 'z'.toNat = 122 := rfl
    have ha : 'a'.toNat = 97 := rfl
    have hn : (Char.ofNat (c.toNat - 32)).toNat = c.toNat - 32 :=
      toNat_ofNat_ascii (by omega)
    rw [hz, ha] at h
    simp only [upperChar, hz, ha, if_pos h, isBlank, hn]
    have h₁ : ∀ n : Nat, 65 ≤ n → n ≤ 122 →
        ((decide (0x09 ≤ n) && decide (n ≤ 0x0D)) || n == 0x20 || n == 0x85 || n == 0xA0
          || n == 0x1680 || (decide (0x2000 ≤ n) && decide (n ≤ 0x200A)) || n == 0x2028
          || n == 0x2029 || n == 0x202F || n == 0x205F || n == 0x3000) = false := by
      intro n hl hu
      simp only [Bool.or_eq_false_iff, Bool.and_eq_false_iff, decide_eq_false_iff_not,
        beq_eq_false_iff_ne, ne_eq]
      omega
    rw [h₁ _ (by omega) (by omega), h₁ _ (by omega) (by omega)]
  · simp only [upperChar, if_neg h]

/-- Converting to upper case twice is converting once. -/
theorem upper_upper (s : String) : upper (upper s) = upper s := by
  simp only [upper, String.toList_ofList, List.map_map]
  congr 1
  exact List.map_congr_left fun c _ => upperChar_upperChar c

/-- Trimming commutes with case conversion. -/
theorem trimChars_map_upperChar (cs : List Char) :
    trimChars (cs.map upperChar) = (trimChars cs).map upperChar := by
  simp only [trimChars, dropWhile_map isBlank isBlank upperChar isBlank_upperChar,
    ← List.map_reverse]

/-- Trimmed text in upper case is trimmed and in upper case. -/
theorem trim_upper_trim (s : String) : upper (trim (upper (trim s))) = upper (trim s) := by
  have h : trim (upper (trim s)) = upper (trim s) := by
    simp only [trim, upper, String.toList_ofList, trimChars_map_upperChar, trimChars_trimChars]
  rw [h, upper_upper]

end Text

end DnsZones
