import DnsZones.Mailbox
import DnsZones.Proofs.Name

/-!
# Laws of Mailbox Names

What the form is in which an administrator's address is kept.

An address is trimmed, its local part is escaped, and a dot is put at its end if
there is none. What comes out has no sign `@` any more, begins with a character
that is not blank, and ends in a dot. A text like that is taken to be in form
already, so encoding it once more changes nothing.

## Main definitions

* `Mailbox.IsEncoded`: The form.

## Theorems

* `Mailbox.encodeTrimmed_ok`: What can be encoded.
* `Mailbox.isEncoded_of_encode`: What encoding gives has the form.
* `Mailbox.encode_of_isEncoded`: What has the form is left alone.
* `Mailbox.encode_append_dot`: A dot at the end of an address.
* `Mailbox.encode_projects`: Encoding is a projection onto the form.
-/

namespace DnsZones

namespace Text

theorem isBlank_head?_trimChars (cs : List Char) :
    ∀ c ∈ (trimChars cs).head?, isBlank c = false := by
  intro c hc
  -- Blanks at the front are dropped first, and what is dropped at the end leaves the front.
  have hfront : (trimChars cs).dropWhile isBlank = trimChars cs :=
    dropWhile_reverse_dropWhile isBlank (cs.dropWhile isBlank) (dropWhile_dropWhile isBlank cs)
  have hhead := List.head?_dropWhile_not isBlank (trimChars cs)
  rw [hfront, Option.mem_def.mp hc] at hhead
  exact hhead

theorem dropWhile_eq_self {p : Char → Bool} {cs : List Char} (h : ∀ c ∈ cs.head?, p c = false) :
    cs.dropWhile p = cs := by
  cases cs with
  | nil => rfl
  | cons c cs => rw [List.dropWhile_cons_of_neg (by rw [h c rfl]; decide)]

/-- Text without white space at either end is not changed by trimming. -/
theorem trim_eq_self {s : String} (hfront : ∀ c ∈ s.toList.head?, isBlank c = false)
    (hback : ∀ c ∈ s.toList.getLast?, isBlank c = false) : trim s = s := by
  rw [← List.head?_reverse] at hback
  unfold trim trimChars
  rw [dropWhile_eq_self hfront, dropWhile_eq_self hback, List.reverse_reverse, String.ofList_toList]

/-- A dot at the end of a trimmed text leaves it trimmed. -/
theorem trim_append_dot {s : String} (h : trim s = s) : trim (s ++ ".") = s ++ "." := by
  have hfront := isBlank_head?_trimChars s.toList
  rw [← String.toList_ofList (l := trimChars s.toList), ← trim, h] at hfront
  have hlist : (s ++ ".").toList = s.toList ++ ['.'] := String.toList_append
  refine trim_eq_self ?_ ?_
  · rw [hlist]
    cases hs : s.toList with
    | nil => exact fun c hc => Option.some.inj hc ▸ rfl
    | cons first rest =>
        rw [hs] at hfront
        exact hfront
  · rw [hlist, List.getLast?_concat]
    exact fun c hc => Option.some.inj hc ▸ rfl

/-- White space around a text is not seen. -/
theorem trimChars_append_blanks {front cs back : List Char} (hfront : ∀ c ∈ front, isBlank c = true)
    (hback : ∀ c ∈ back, isBlank c = true) : trimChars (front ++ cs ++ back) = trimChars cs := by
  have hnone : back.dropWhile isBlank = [] := List.dropWhile_eq_nil_iff.mpr hback
  have hreverse : ∀ c ∈ back.reverse, isBlank c = true := fun c hc =>
    hback c (List.mem_reverse.mp hc)
  unfold trimChars
  rw [List.append_assoc, List.dropWhile_append_of_pos hfront, List.dropWhile_append]
  -- If the text itself is blank, nothing is left of it and what follows it.
  by_cases hblank : (cs.dropWhile isBlank).isEmpty = true
  · rw [if_pos hblank, hnone, List.isEmpty_iff.mp hblank]
  · rw [if_neg hblank, List.reverse_append, List.dropWhile_append_of_pos hreverse]

end Text

namespace Mailbox

/-- The form in which an administrator's address is kept. -/
structure IsEncoded (text : String) : Prop where
  /-- It is no email address any more. -/
  noSign : '@' ∉ text.toList
  /-- It has nothing blank in front. -/
  front : ∀ c ∈ text.toList.head?, Text.isBlank c = false
  absolute : Name.isAbsolute text = true

theorem isAbsolute_append_dot (text : String) : Name.isAbsolute (text ++ ".") = true := by
  refine beq_iff_eq.mpr ?_
  rw [String.toList_append]
  exact List.getLast?_concat

theorem withFinalDot_of_isAbsolute {text : String} (h : Name.isAbsolute text = true) :
    withFinalDot text = text := if_pos h

theorem withFinalDot_of_relative {text : String} (h : Name.isAbsolute text = false) :
    withFinalDot text = text ++ "." := if_neg (Bool.eq_false_iff.mp h)

theorem isAbsolute_withFinalDot (text : String) : Name.isAbsolute (withFinalDot text) = true := by
  cases h : Name.isAbsolute text with
  | true => rwa [withFinalDot_of_isAbsolute h]
  | false =>
      rw [withFinalDot_of_relative h]
      exact isAbsolute_append_dot text

theorem toList_withFinalDot (text : String) :
    (withFinalDot text).toList = Name.withoutFinalDot text.toList ++ ['.'] := by
  unfold withFinalDot
  cases h : Name.isAbsolute text with
  | true => exact Name.toList_of_isAbsolute h
  | false =>
      rw [Name.withoutFinalDot_of_relative h, if_neg (by decide), String.toList_append]
      rfl

/-- A text that has the form apart from the dot at its end has all of it with the dot. -/
theorem isEncoded_withFinalDot {text : String} (hsign : '@' ∉ text.toList)
    (hfront : ∀ c ∈ text.toList.head?, Text.isBlank c = false) :
    IsEncoded (withFinalDot text) := by
  have hlist : (withFinalDot text).toList = text.toList
      ∨ (withFinalDot text).toList = text.toList ++ ['.'] := by
    unfold withFinalDot
    split
    · exact Or.inl rfl
    · exact Or.inr String.toList_append
  refine ⟨?_, ?_, isAbsolute_withFinalDot text⟩
  · rcases hlist with he | he
    · rwa [he]
    · rw [he, List.mem_append, List.mem_singleton]
      rintro (hm | hdot)
      · exact hsign hm
      · cases hdot
  · rcases hlist with he | he
    · rwa [he]
    · rw [he]
      cases htext : text.toList with
      | nil => exact fun c hc => Option.some.inj hc ▸ rfl
      | cons first rest =>
          rw [htext] at hfront
          exact hfront

theorem eq_backslash_or_mem_of_mem_escape {c : Char} {cs : List Char} (h : c ∈ escape cs) :
    c = '\\' ∨ c ∈ cs := by
  induction cs with
  | nil => exact Or.inr h
  | cons d ds ih =>
      unfold escape at h
      by_cases hd : d = '.'
      · rw [if_pos hd] at h
        rcases List.mem_cons.mp h with hc | h
        · exact Or.inl hc
        rcases List.mem_cons.mp h with hc | h
        · exact Or.inr (List.mem_cons.mpr (Or.inl (hc.trans hd.symm)))
        · exact (ih h).imp_right (List.mem_cons_of_mem _)
      · rw [if_neg hd] at h
        rcases List.mem_cons.mp h with hc | h
        · exact Or.inr (List.mem_cons.mpr (Or.inl hc))
        · exact (ih h).imp_right (List.mem_cons_of_mem _)

theorem isBlank_head?_escape {cs : List Char} (h : ∀ c ∈ cs.head?, Text.isBlank c = false) :
    ∀ c ∈ (escape cs).head?, Text.isBlank c = false := by
  cases cs with
  | nil => exact h
  | cons d ds =>
      unfold escape
      by_cases hd : d = '.'
      · rw [if_pos hd]
        exact fun c hc => Option.some.inj hc ▸ rfl
      · rw [if_neg hd]
        exact h

/-- What is encoded is a name as it stands, or a local part and a valid domain with the first sign
    between them. -/
theorem encodeTrimmed_ok {address text : String} (h : encodeTrimmed address = .ok text) :
    ('@' ∉ address.toList ∧ address ≠ "" ∧ text = withFinalDot address)
      ∨ ∃ part domain, address.toList = part ++ '@' :: domain ∧ '@' ∉ part ∧ part ≠ []
        ∧ Name.isValid (String.ofList domain) = true
        ∧ text = withFinalDot (String.ofList (escape part ++ '.' :: domain)) := by
  have hsplit := List.takeWhile_append_dropWhile (p := (· != '@')) (l := address.toList)
  unfold encodeTrimmed at h
  cases hd : address.toList.dropWhile (· != '@') with
  | nil =>
      have hsign : '@' ∉ address.toList := fun hm =>
        absurd (List.dropWhile_eq_nil_iff.mp hd '@' hm) (by decide)
      rw [hd] at h
      by_cases hempty : address.isEmpty = true
      · simp only [hempty, if_true] at h
        cases h
      · simp only [hempty, Bool.false_eq_true, if_false] at h
        cases h
        exact Or.inl ⟨hsign, fun he => hempty (String.isEmpty_iff.mpr he), rfl⟩
  | cons sign domain =>
      -- What the search for the sign stops at is the sign.
      have hsign : sign = '@' := by
        have hstop := List.head?_dropWhile_not (· != '@') address.toList
        rw [hd] at hstop
        exact not_not.mp fun hne => absurd hstop (by simp [hne])
      subst hsign
      rw [hd] at h hsplit
      simp only at h
      by_cases hbad : ((address.toList.takeWhile (· != '@')).isEmpty
          || !Name.isValid (String.ofList domain)) = true
      · rw [if_pos hbad] at h
        cases h
      · rw [if_neg hbad] at h
        cases h
        simp only [Bool.or_eq_true, List.isEmpty_iff, Bool.not_eq_true', not_or,
          Bool.not_eq_false] at hbad
        have hpart : '@' ∉ address.toList.takeWhile (· != '@') := fun hm =>
          absurd (List.mem_takeWhile_imp hm) (by decide)
        exact Or.inr ⟨_, domain, hsplit.symm, hpart, hbad.1, hbad.2, rfl⟩

/-- An address with a sign is encoded part by part. -/
theorem encodeTrimmed_of_sign {address : String} {part domain : List Char}
    (hlist : address.toList = part ++ '@' :: domain) (hsign : '@' ∉ part) :
    encodeTrimmed address
      = if part.isEmpty || !Name.isValid (String.ofList domain) then
          .error (.invalidEmail address)
        else .ok (withFinalDot (String.ofList (escape part ++ '.' :: domain))) := by
  have hbefore : ∀ c ∈ part, (c != '@') = true := fun c hc =>
    bne_iff_ne.mpr fun he => hsign (he ▸ hc)
  have htake : address.toList.takeWhile (· != '@') = part := by
    rw [hlist, List.takeWhile_append_of_pos hbefore, List.takeWhile_cons_of_neg (by decide),
      List.append_nil]
  have hdrop : address.toList.dropWhile (· != '@') = '@' :: domain := by
    rw [hlist, List.dropWhile_append_of_pos hbefore, List.dropWhile_cons_of_neg (by decide)]
  unfold encodeTrimmed
  rw [htake, hdrop]

/-- A local part in front of a valid domain has the form when it is escaped. -/
theorem isEncoded_of_parts {part domain : List Char} (hsign : '@' ∉ part)
    (hfront : ∀ c ∈ part.head?, Text.isBlank c = false)
    (hdomain : Name.isValid (String.ofList domain) = true) :
    IsEncoded (withFinalDot (String.ofList (escape part ++ '.' :: domain))) := by
  refine isEncoded_withFinalDot ?_ ?_
  · rw [String.toList_ofList, List.mem_append, List.mem_cons]
    rintro (hm | hm | hm)
    · rcases eq_backslash_or_mem_of_mem_escape hm with hc | hm
      · cases hc
      · exact hsign hm
    · cases hm
    · have hchar := Name.eq_dot_or_isLabelChar hdomain (c := '@')
        (by rw [String.toList_ofList]; exact hm)
      exact absurd hchar (by decide)
  · -- The text begins with the escaped local part, or with the dot if there were none.
    rw [String.toList_ofList]
    have hescaped := isBlank_head?_escape hfront
    cases he : escape part with
    | nil => exact fun c hc => Option.some.inj hc ▸ rfl
    | cons d ds =>
        rw [he] at hescaped
        exact hescaped

/-- What encoding gives has the form. -/
theorem isEncoded_of_encode {address text : String} (h : encode address = .ok text) :
    IsEncoded text := by
  have hfront := Text.isBlank_head?_trimChars address.toList
  have htrim : (Text.trim address).toList = Text.trimChars address.toList := String.toList_ofList
  rw [← htrim] at hfront
  rcases encodeTrimmed_ok h with ⟨hsign, -, rfl⟩ | ⟨part, domain, hlist, hsign, hne, hdomain, rfl⟩
  · exact isEncoded_withFinalDot hsign hfront
  · rw [hlist] at hfront
    refine isEncoded_of_parts hsign ?_ hdomain
    cases part with
    | nil => exact absurd rfl hne
    | cons first rest => exact hfront

/-- What has the form is left alone. -/
theorem encode_of_isEncoded {text : String} (h : IsEncoded text) : encode text = .ok text := by
  have hlast : text.toList.getLast? = some '.' := beq_iff_eq.mp h.absolute
  have htrim : Text.trim text = text :=
    Text.trim_eq_self h.front fun c hc => Option.some.inj (hlast.symm.trans hc) ▸ rfl
  have hdrop : text.toList.dropWhile (· != '@') = [] :=
    List.dropWhile_eq_nil_iff.mpr fun c hc => bne_iff_ne.mpr fun he => h.noSign (he ▸ hc)
  have hempty : ¬text.isEmpty = true := by
    rw [String.isEmpty_iff]
    rintro rfl
    cases hlast
  unfold encode encodeTrimmed
  rw [htrim, hdrop]
  simp only [hempty, Bool.false_eq_true, if_false]
  rw [withFinalDot_of_isAbsolute h.absolute]

/-! ### Other spellings -/

theorem ne_nil_of_isValid {domain : List Char} (h : Name.isValid (String.ofList domain) = true) :
    domain ≠ [] := by
  have hchars := Name.toList_ne_nil h
  rwa [String.toList_ofList] at hchars

/-- The end of an address is the end of its domain. -/
theorem isAbsolute_append_cons {front domain : List Char} (c : Char) (hne : domain ≠ []) :
    Name.isAbsolute (String.ofList (front ++ c :: domain))
      = Name.isAbsolute (String.ofList domain) := by
  unfold Name.isAbsolute
  rw [String.toList_ofList, String.toList_ofList, ← List.singleton_append, ← List.append_assoc,
    List.getLast?_append_of_ne_nil _ hne]

/-- A domain with one more dot at its end is one as long as it is not too long. -/
theorem isValid_append_dot_iff {domain : String} (hdomain : Name.isValid domain = true)
    (hrelative : Name.isAbsolute domain = false) :
    Name.isValid (domain ++ ".") = true ↔ domain.utf8ByteSize < Name.maxLength := by
  have hlabels := (Name.isValid_iff.mp hdomain).2
  rw [Name.withoutFinalDot_of_relative hrelative] at hlabels
  rw [Name.isValid_iff, String.toList_append, show ".".toList = ['.'] from rfl,
    Name.withoutFinalDot_append_dot, String.utf8ByteSize_append]
  exact and_iff_left hlabels

/-- An address with a sign and one dot more is encoded as without it, unless the dot is one byte
    more than its domain may have. -/
theorem encodeTrimmed_append_dot {address : String} {part domain : List Char}
    (hlist : address.toList = part ++ '@' :: domain) (hsign : '@' ∉ part) (hpart : part ≠ [])
    (hdomain : Name.isValid (String.ofList domain) = true)
    (hrelative : Name.isAbsolute (String.ofList domain) = false) :
    encodeTrimmed (address ++ ".")
      = if (String.ofList domain).utf8ByteSize < Name.maxLength then
          .ok (withFinalDot (String.ofList (escape part ++ '.' :: domain)))
        else .error (.invalidEmail (address ++ ".")) := by
  have hne := ne_nil_of_isValid hdomain
  have hdotted : (address ++ ".").toList = part ++ '@' :: (domain ++ ['.']) := by
    rw [String.toList_append, hlist, List.append_assoc]
    rfl
  have hbody : String.ofList (escape part ++ '.' :: (domain ++ ['.']))
      = String.ofList (escape part ++ '.' :: domain) ++ "." := by
    rw [← List.cons_append, ← List.append_assoc, String.ofList_append]
  -- The form has a dot at its end, whether the address brings it along or not.
  have hsame : withFinalDot (String.ofList (escape part ++ '.' :: (domain ++ ['.'])))
      = withFinalDot (String.ofList (escape part ++ '.' :: domain)) := by
    rw [hbody, withFinalDot_of_relative ((isAbsolute_append_cons '.' hne).trans hrelative)]
    exact withFinalDot_of_isAbsolute (isAbsolute_append_dot _)
  rw [encodeTrimmed_of_sign hdotted hsign, hsame, List.isEmpty_eq_false_iff.mpr hpart,
    Bool.false_or, String.ofList_append]
  by_cases hshort : (String.ofList domain).utf8ByteSize < Name.maxLength
  · rw [if_pos hshort, (isValid_append_dot_iff hdomain hrelative).mpr hshort]
    rfl
  · have hlong := mt (isValid_append_dot_iff hdomain hrelative).mp hshort
    rw [Bool.not_eq_true] at hlong
    rw [if_neg hshort, hlong]
    rfl

/-- A dot at the end of an address that has none makes no difference, unless it is one byte more
    than a domain may have. -/
theorem encode_append_dot {address text : String} (htrim : Text.trim address = address)
    (hrelative : Name.isAbsolute address = false) (h : encode address = .ok text) :
    encode (address ++ ".") = .ok text
      ∨ encode (address ++ ".") = .error (.invalidEmail (address ++ "."))
        ∧ ∃ part domain, address.toList = part ++ '@' :: domain ∧ '@' ∉ part
          ∧ (String.ofList domain).utf8ByteSize = Name.maxLength := by
  have hencoded := isEncoded_of_encode h
  rw [encode, htrim] at h
  rcases encodeTrimmed_ok h with ⟨-, -, rfl⟩ | ⟨part, domain, hlist, hsign, hpart, hdomain, rfl⟩
  · -- Without a sign the dot is the one that the form has at its end.
    rw [withFinalDot_of_relative hrelative] at hencoded ⊢
    exact Or.inl (encode_of_isEncoded hencoded)
  · have hend : Name.isAbsolute (String.ofList domain) = false := by
      rwa [← isAbsolute_append_cons '@' (ne_nil_of_isValid hdomain), ← hlist,
        String.ofList_toList]
    rw [encode, Text.trim_append_dot htrim,
      encodeTrimmed_append_dot hlist hsign hpart hdomain hend]
    by_cases hshort : (String.ofList domain).utf8ByteSize < Name.maxLength
    · rw [if_pos hshort]
      exact Or.inl rfl
    · have hsize := (Name.isValid_iff.mp hdomain).1
      rw [if_neg hshort]
      exact Or.inr ⟨rfl, part, domain, hlist, hsign, Nat.le_antisymm hsize (Nat.not_lt.mp hshort)⟩

/-- **Encoding is a projection onto its normal form.** What it gives has the form, which is what it
    leaves alone: no sign `@`, a dot at the end, and no white space at either end. White space
    around an address is not seen, and one dot more at its end makes no difference, unless that
    takes the domain over the length of a name. -/
theorem encode_projects {address text : String} (h : encode address = .ok text) :
    encode text = .ok text
      ∧ ('@' ∉ text.toList ∧ Name.isAbsolute text = true ∧ Text.trim text = text)
      ∧ (∀ front back : String, (∀ c ∈ front.toList, Text.isBlank c = true) →
        (∀ c ∈ back.toList, Text.isBlank c = true) → encode (front ++ address ++ back) = .ok text)
      ∧ (Text.trim address = address → Name.isAbsolute address = false →
        encode (address ++ ".") = .ok text
          ∨ encode (address ++ ".") = .error (.invalidEmail (address ++ "."))
            ∧ ∃ part domain, address.toList = part ++ '@' :: domain ∧ '@' ∉ part
              ∧ (String.ofList domain).utf8ByteSize = Name.maxLength) := by
  have hencoded := isEncoded_of_encode h
  have htrim : Text.trim text = text :=
    Text.trim_eq_self hencoded.front fun c hc =>
      Option.some.inj ((beq_iff_eq.mp hencoded.absolute).symm.trans hc) ▸ rfl
  refine ⟨encode_of_isEncoded hencoded, ⟨hencoded.noSign, hencoded.absolute, htrim⟩, ?_,
    fun htrimmed hrelative => encode_append_dot htrimmed hrelative h⟩
  intro front back hfront hback
  rw [encode, Text.trim, String.toList_append, String.toList_append,
    Text.trimChars_append_blanks hfront hback]
  exact h

/-- An address with a dot in its local part, between an em space and a line break, and with one dot
    more. -/
theorem encode_projects_typed :
    encode "first.last@example.com" = .ok "first\\.last.example.com."
      ∧ encode "first\\.last.example.com." = .ok "first\\.last.example.com."
      ∧ encode ("\u2003" ++ "first.last@example.com" ++ "\n") = .ok "first\\.last.example.com."
      ∧ encode ("first.last@example.com" ++ ".") = .ok "first\\.last.example.com." := by
  have h : encode "first.last@example.com" = .ok "first\\.last.example.com." := by
    decide
  rcases encode_projects h with ⟨hagain, -, hblanks, hdot⟩
  have hspace : "\u2003".toList.all Text.isBlank = true := by decide
  have hbreak : "\n".toList.all Text.isBlank = true := by decide
  refine ⟨h, hagain, hblanks "\u2003" "\n" (List.all_eq_true.mp hspace)
    (List.all_eq_true.mp hbreak), ?_⟩
  rcases hdot (by decide) (by decide) with hok | ⟨herror, -⟩
  · exact hok
  · exact absurd herror (by decide)

end Mailbox

end DnsZones
