import DnsZones.Proofs.Mailbox

/-!
# Addresses That Share a Name

When two administrator addresses are encoded to one name.

Every dot of the local part has a backslash in front of it, so a reader of the name
takes the first dot without one for the place where the sign `@` was. With nothing
but dots escaped this can go wrong: a backslash of the local part itself gets
nothing in front of it, and if it is the last character it stands before the dot
that separates. Then that dot reads as one of the local part, and the first label
of the domain as what follows it there.

This is the only way in which two addresses share a name. The dots of a name are
either escaped or separate labels, and what follows the local part has no backslash
in it, so two readings of one name can be apart by a single label only.

## Main definitions

* `Mailbox.localPart`, `Mailbox.domain`: What is before and after the first sign.
* `Mailbox.AreSame`: Addresses with the same parts.
* `Mailbox.ReadsAs`: An address that is read as another one.

## Theorems

* `Mailbox.of_escape_eq_append`: Where an escaped text can be cut before a dot.
* `Mailbox.escape_injective`: No two local parts are escaped alike.
* `Mailbox.text_eq_iff`, `Mailbox.encode_eq_iff`: When two addresses share a name.
-/

namespace DnsZones

namespace Text

/-- What is not blank is not trimmed off. -/
theorem mem_trimChars {c : Char} {cs : List Char} (hc : c ∈ cs) (hblank : isBlank c = false) :
    c ∈ trimChars cs := by
  have hkeep : ∀ ds : List Char, c ∈ ds → c ∈ ds.dropWhile isBlank := by
    intro ds hd
    rw [← List.takeWhile_append_dropWhile (p := isBlank) (l := ds)] at hd
    rcases List.mem_append.mp hd with hm | hm
    · exact absurd (List.mem_takeWhile_imp hm) (by rw [hblank]; decide)
    · exact hm
  exact List.mem_reverse.mpr (hkeep _ (List.mem_reverse.mpr (hkeep cs hc)))

end Text

namespace Mailbox

/-- What an address has before its first sign. -/
def localPart (address : String) : List Char :=
  (Text.trim address).toList.takeWhile (· != '@')

/-- What an address has after its first sign. -/
def domain (address : String) : List Char :=
  ((Text.trim address).toList.dropWhile (· != '@')).drop 1

/-- Two addresses with the same local part, and the same domain up to a dot at its end. -/
def AreSame (address other : String) : Prop :=
  localPart address = localPart other
    ∧ Name.withoutFinalDot (domain address) = Name.withoutFinalDot (domain other)

/-- One address has a backslash at the end of its local part. The other has instead a dot there
    and then the first label of the domain, which is the rest of its own. -/
def ReadsAs (address other : String) : Prop :=
  ∃ front label, '.' ∉ label ∧ localPart address = front ++ ['\\']
    ∧ localPart other = front ++ '.' :: label
    ∧ Name.withoutFinalDot (domain address)
      = label ++ '.' :: Name.withoutFinalDot (domain other)

instance (address other : String) : Decidable (AreSame address other) :=
  inferInstanceAs (Decidable (_ ∧ _))

/-! ### Escaped texts -/

variable {part part' label : List Char} {address other text text' : String}

theorem escape_cons_dot (cs : List Char) : escape ('.' :: cs) = '\\' :: '.' :: escape cs :=
  if_pos rfl

theorem escape_cons_of_ne {c : Char} (hc : c ≠ '.') (cs : List Char) :
    escape (c :: cs) = c :: escape cs := if_neg hc

theorem escape_append (xs ys : List Char) : escape (xs ++ ys) = escape xs ++ escape ys := by
  induction xs with
  | nil => rfl
  | cons c cs ih =>
      by_cases hc : c = '.'
      · subst hc
        rw [List.cons_append, escape_cons_dot, escape_cons_dot, ih]
        rfl
      · rw [List.cons_append, escape_cons_of_ne hc, escape_cons_of_ne hc, ih]
        rfl

theorem escape_of_not_mem {cs : List Char} (h : '.' ∉ cs) : escape cs = cs := by
  induction cs with
  | nil => rfl
  | cons c cs ih =>
      rw [escape_cons_of_ne (List.ne_of_not_mem_cons h).symm, ih (List.not_mem_of_not_mem_cons h)]

/-- Where a character of an escaped text comes from: it was there, or it is the backslash in front
    of a dot. -/
theorem of_escape_eq_cons {c : Char} {cs rest : List Char} (h : escape cs = c :: rest) :
    (∃ ds, cs = c :: ds ∧ c ≠ '.' ∧ escape ds = rest)
      ∨ ∃ ds, cs = '.' :: ds ∧ c = '\\' ∧ '.' :: escape ds = rest := by
  cases cs with
  | nil => cases h
  | cons d ds =>
      by_cases hd : d = '.'
      · subst hd
        rw [escape_cons_dot] at h
        rcases List.cons.inj h with ⟨hc, hrest⟩
        exact Or.inr ⟨ds, rfl, hc.symm, hrest⟩
      · rw [escape_cons_of_ne hd] at h
        rcases List.cons.inj h with ⟨rfl, hrest⟩
        exact Or.inl ⟨ds, rfl, hd, hrest⟩

/-- No escaped text begins with a dot: a backslash comes first. -/
theorem escape_ne_dot_cons (cs rest : List Char) : escape cs ≠ '.' :: rest := by
  intro h
  rcases of_escape_eq_cons h with ⟨_, -, hne, -⟩ | ⟨_, -, hc, -⟩
  · exact hne rfl
  · exact absurd hc (by decide)

theorem eq_nil_of_escape {cs : List Char} (h : escape cs = []) : cs = [] := by
  cases cs with
  | nil => rfl
  | cons c cs =>
      by_cases hc : c = '.'
      · subst hc
        rw [escape_cons_dot] at h
        cases h
      · rw [escape_cons_of_ne hc] at h
        cases h

/-- A text that is escaped without a backslash has no dots, so nothing was done to it. -/
theorem eq_of_not_mem_escape {cs : List Char} (h : '\\' ∉ escape cs) :
    '.' ∉ cs ∧ cs = escape cs := by
  have hdot : '.' ∉ cs := by
    intro hm
    rcases List.append_of_mem hm with ⟨front, back, rfl⟩
    rw [escape_append, escape_cons_dot] at h
    exact h (List.mem_append_right _ List.mem_cons_self)
  exact ⟨hdot, (escape_of_not_mem hdot).symm⟩

/-- No two local parts are escaped alike. -/
theorem escape_injective (h : escape part = escape part') : part = part' := by
  induction part generalizing part' with
  | nil => exact (eq_nil_of_escape h.symm).symm
  | cons c cs ih =>
      by_cases hc : c = '.'
      · subst hc
        rw [escape_cons_dot] at h
        rcases of_escape_eq_cons h.symm with ⟨ds, -, -, hds⟩ | ⟨ds, rfl, -, hds⟩
        · exact absurd hds (escape_ne_dot_cons ds _)
        · rw [ih (List.cons.inj hds).2.symm]
      · rw [escape_cons_of_ne hc] at h
        rcases of_escape_eq_cons h.symm with ⟨ds, rfl, -, hds⟩ | ⟨ds, -, -, hds⟩
        · rw [ih hds.symm]
        · exact absurd hds.symm (escape_ne_dot_cons cs _)

/-- Where an escaped text goes on with a dot after another one, the other ends in a backslash: the
    dot is escaped by it, and no dot comes after unless with a backslash. -/
theorem of_escape_eq_append (h : escape part' = escape part ++ '.' :: label)
    (hlabel : '\\' ∉ label) :
    ∃ front, part = front ++ ['\\'] ∧ part' = front ++ '.' :: label ∧ '.' ∉ label := by
  -- By induction on the shorter text; its first character is taken off both.
  induction part generalizing part' with
  | nil => exact absurd h (escape_ne_dot_cons part' label)
  | cons c cs ih =>
      by_cases hc : c = '.'
      · subst hc
        rw [escape_cons_dot] at h
        rcases of_escape_eq_cons h with ⟨ds, -, -, hds⟩ | ⟨ds, rfl, -, hds⟩
        · exact absurd hds (escape_ne_dot_cons ds _)
        · rcases ih (List.cons.inj hds).2 with ⟨front, rfl, rfl, hdot⟩
          exact ⟨'.' :: front, rfl, rfl, hdot⟩
      · rw [escape_cons_of_ne hc] at h
        rcases of_escape_eq_cons h with ⟨ds, rfl, -, hds⟩ | ⟨ds, rfl, rfl, hds⟩
        · rcases ih hds with ⟨front, rfl, rfl, hdot⟩
          exact ⟨c :: front, rfl, rfl, hdot⟩
        · -- The backslash is the last of the shorter text and escapes a dot of the longer one.
          cases he : escape cs with
          | nil =>
              rw [he] at hds
              have hlast := (List.cons.inj hds).2
              rw [← hlast] at hlabel
              rcases eq_of_not_mem_escape hlabel with ⟨hdot, hds'⟩
              rw [eq_nil_of_escape he, ← hlast, ← hds']
              exact ⟨[], rfl, rfl, hdot⟩
          | cons d rest =>
              rw [he] at hds
              rw [← (List.cons.inj hds).1] at he
              exact absurd he (escape_ne_dot_cons cs rest)

/-- Where one text can be cut at two places, the local parts are the same or one has a dot for the
    backslash that the other ends in. -/
theorem of_escape_append {rest rest' between : List Char}
    (hpart : escape part' = escape part ++ between)
    (hrest : '.' :: rest = between ++ '.' :: rest') (hplain : '\\' ∉ rest) :
    (part = part' ∧ rest = rest')
      ∨ ∃ front label, '.' ∉ label ∧ part = front ++ ['\\'] ∧ part' = front ++ '.' :: label
          ∧ rest = label ++ '.' :: rest' := by
  cases between with
  | nil =>
      rw [List.append_nil] at hpart
      exact Or.inl ⟨(escape_injective hpart).symm, (List.cons.inj hrest).2⟩
  | cons c label =>
      rcases List.cons.inj hrest with ⟨hc, hlist⟩
      subst hc
      have hlabel : '\\' ∉ label := fun hm => hplain (hlist ▸ List.mem_append_left _ hm)
      rcases of_escape_eq_append hpart hlabel with ⟨front, hfront, hback, hdot⟩
      exact Or.inr ⟨front, label, hdot, hfront, hback, hlist⟩

/-- A backslash at the end does to the dot after it what escaping does to a dot. -/
theorem escape_append_backslash (front rest : List Char) (hlabel : '.' ∉ label) :
    escape (front ++ ['\\']) ++ '.' :: (label ++ '.' :: rest)
      = escape (front ++ '.' :: label) ++ '.' :: rest := by
  rw [escape_append, escape_append, escape_cons_dot, escape_of_not_mem hlabel,
    escape_cons_of_ne (by decide), List.append_assoc, List.append_assoc]
  rfl

/-! ### Names -/

/-- The name for an address with a sign. -/
theorem toList_of_encode (hsign : '@' ∈ address.toList) (h : encode address = .ok text) :
    text.toList
        = escape (localPart address) ++ '.' :: Name.withoutFinalDot (domain address) ++ ['.']
      ∧ '\\' ∉ Name.withoutFinalDot (domain address) := by
  have htrim : '@' ∈ (Text.trim address).toList := by
    rw [Text.trim, String.toList_ofList]
    exact Text.mem_trimChars hsign (by decide)
  rcases encodeTrimmed_ok h with ⟨hno, -⟩ | ⟨part, rest, hlist, hno, -, hdomain, rfl⟩
  · exact absurd htrim hno
  · have hbefore : ∀ c ∈ part, (c != '@') = true := fun c hc =>
      bne_iff_ne.mpr fun he => hno (he ▸ hc)
    have hpart : localPart address = part := by
      rw [localPart, hlist, List.takeWhile_append_of_pos hbefore,
        List.takeWhile_cons_of_neg (by decide), List.append_nil]
    have hrest : domain address = rest := by
      rw [domain, hlist, List.dropWhile_append_of_pos hbefore,
        List.dropWhile_cons_of_neg (by decide), List.drop_one, List.tail_cons]
    have hne := ne_nil_of_isValid hdomain
    rw [toList_withFinalDot, String.toList_ofList, hpart, hrest, ← List.singleton_append,
      ← List.append_assoc, Name.withoutFinalDot_append _ hne]
    refine ⟨by rw [List.append_assoc _ ['.']]; rfl, fun hm => ?_⟩
    -- A domain has letters, digits, hyphens and dots.
    have hmem : '\\' ∈ (String.ofList rest).toList := by
      rw [String.toList_ofList]
      unfold Name.withoutFinalDot at hm
      split at hm
      · exact List.dropLast_subset _ hm
      · exact hm
    rcases Name.eq_dot_or_isLabelChar hdomain hmem with hdot | hchar
    · exact absurd hdot (by decide)
    · exact absurd hchar (by decide)

/-- An address that is read as another one is not the same as it. -/
theorem not_areSame_of_readsAs (h : ReadsAs address other) : ¬AreSame address other := by
  intro hsame
  rcases h with ⟨front, label, -, -, -, hdomain⟩
  have hlength := congrArg List.length (hsame.2.symm.trans hdomain)
  rw [List.length_append, List.length_cons] at hlength
  omega

theorem AreSame.symm (h : AreSame address other) : AreSame other address :=
  ⟨h.1.symm, h.2.symm⟩

/-- Two addresses share a name just if they are the same or one is read as the other. -/
theorem text_eq_iff (hsign : '@' ∈ address.toList) (hsign' : '@' ∈ other.toList)
    (h : encode address = .ok text) (h' : encode other = .ok text') :
    text = text' ↔ AreSame address other ∨ ReadsAs address other ∨ ReadsAs other address := by
  rcases toList_of_encode hsign h with ⟨hlist, hplain⟩
  rcases toList_of_encode hsign' h' with ⟨hlist', hplain'⟩
  rw [← String.toList_inj, hlist, hlist', List.append_left_inj]
  constructor
  · intro he
    -- One of the two local parts goes at least as far as the other.
    rcases List.append_eq_append_iff.mp he with ⟨_, hpart, hrest⟩ | ⟨_, hpart, hrest⟩
    · rcases of_escape_append hpart hrest hplain with hsame | hreads
      · exact Or.inl hsame
      · exact Or.inr (Or.inl hreads)
    · rcases of_escape_append hpart hrest hplain' with hsame | hreads
      · exact Or.inl (AreSame.symm hsame)
      · exact Or.inr (Or.inr hreads)
  · rintro (⟨hp, hd⟩ | ⟨front, label, hdot, hp, hp', hd⟩ | ⟨front, label, hdot, hp, hp', hd⟩)
    · rw [hp, hd]
    · rw [hp, hp', hd, escape_append_backslash front _ hdot]
    · rw [hp, hp', hd, escape_append_backslash front _ hdot]

/-- Two addresses share a name just if they are the same, or if one has a backslash at the end of
    its local part and is read as the other. So a shared name means the same address exactly when
    neither of the two is read as the other. -/
theorem encode_eq_iff (hsign : '@' ∈ address.toList) (hsign' : '@' ∈ other.toList)
    (h : encode address = .ok text) (h' : encode other = .ok text') :
    (text = text' ↔ AreSame address other ∨ ReadsAs address other ∨ ReadsAs other address)
      ∧ ((text = text' → AreSame address other)
        ↔ ¬ReadsAs address other ∧ ¬ReadsAs other address) := by
  have hshared := text_eq_iff hsign hsign' h h'
  refine ⟨hshared, fun hkept => ?_, fun hreads he => ?_⟩
  · have hnot : ReadsAs address other ∨ ReadsAs other address → AreSame address other :=
      fun hreads => hkept (hshared.mpr (Or.inr hreads))
    exact ⟨fun hr => not_areSame_of_readsAs hr (hnot (Or.inl hr)),
      fun hr => not_areSame_of_readsAs hr (hnot (Or.inr hr)).symm⟩
  · rcases hshared.mp he with hsame | hr | hr
    · exact hsame
    · exact absurd hr hreads.1
    · exact absurd hr hreads.2

/-- The two readings of a name with an escaped dot: `a\.b.c.` stands for `a\@b.c` as well as for
    `a.b@c`. -/
theorem encode_eq_iff_backslash :
    encode "a\\@b.c" = .ok "a\\.b.c." ∧ encode "a.b@c" = .ok "a\\.b.c."
      ∧ (ReadsAs "a\\@b.c" "a.b@c" ∨ ReadsAs "a.b@c" "a\\@b.c") := by
  have hname : encode "a\\@b.c" = .ok "a\\.b.c." := by decide
  have hname' : encode "a.b@c" = .ok "a\\.b.c." := by decide
  have hnot : ¬AreSame "a\\@b.c" "a.b@c" := by decide
  rcases (encode_eq_iff (by decide) (by decide) hname hname').1.mp rfl with hsame | hreads
  · exact absurd hsame hnot
  · exact ⟨hname, hname', hreads⟩

/-- Two addresses that are not the same and share a name. -/
theorem not_areSame_backslash : encode "a\\@b.c" = .ok "a\\.b.c."
    ∧ encode "a.b@c" = .ok "a\\.b.c." ∧ ¬AreSame "a\\@b.c" "a.b@c" := by
  decide

end Mailbox

end DnsZones
