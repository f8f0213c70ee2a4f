import DnsZones.Proofs.Mailbox

/-!
# Absolute Names

Which name a text in a zone stands for, and in how many ways it can be written.

Every text that is used as a name in a zone stands for the labels of an absolute name.
The sign `@` stands for the labels of the zone, a text with a dot at its end for its own
labels, and any other text for its own labels with those of the zone behind them. Case
means nothing in DNS, so two texts stand for one name if their labels are the same when
the ASCII letters are in lower case.

The program does not compare labels. It makes both texts absolute, puts them into lower
case and compares what comes out. The zone's name may or may not have a dot at its end,
a relative text gets one, and changing case must neither make nor remove a dot. That the
comparison still sees names and not spellings is what is shown here.

## Main definitions

* `Name.absoluteLabels`: The labels that a text in a zone stands for.
* `Name.AreAlike`: Two texts stand for one name, letter case apart.
* `Name.IsRespelling`: A name is written in another way.

## Theorems

* `Text.split_injective`, `Text.split_map`: A list is determined by its fields.
* `Name.labels_qualify`: A text as an absolute name has the labels that it stands for.
* `Name.lower_qualify_eq_iff`: Comparing spellings in lower case compares names.
* `Name.IsRespelling.lower_qualify_eq`: Another spelling compares as the first.
-/

namespace DnsZones

/-! ### Fields and letter case -/

namespace Text

variable {α : Type} [DecidableEq α]

/-- The fields of a list with separators between them are the list. -/
theorem intercalate_split (separator : α) (xs : List α) :
    [separator].intercalate (split separator xs) = xs := by
  induction xs with
  | nil => rfl
  | cons x xs ih =>
      rw [split]
      cases hs : split separator xs with
      | nil => exact absurd hs (split_ne_nil separator xs)
      | cons field fields =>
          rw [hs] at ih
          by_cases hx : x = separator
          · rw [if_pos hx, List.intercalate_cons_cons, ih, hx]
            rfl
          · rw [if_neg hx, ← ih]
            cases fields with
            | nil => simp
            | cons second fields => simp only [List.intercalate_cons_cons, List.cons_append]

/-- A list is determined by its fields. -/
theorem split_injective (separator : α) : Function.Injective (split separator) :=
  Function.LeftInverse.injective (intercalate_split separator)

/-- A map that neither makes nor removes separators changes the fields one by one. -/
theorem split_map {separator : α} {f : α → α} (hf : ∀ x, f x = separator ↔ x = separator)
    (xs : List α) : split separator (xs.map f) = (split separator xs).map (List.map f) := by
  induction xs with
  | nil => rfl
  | cons x xs ih =>
      rw [List.map_cons, split, split, ih]
      by_cases hx : x = separator
      · rw [if_pos ((hf x).mpr hx), if_pos hx, List.map_cons, List.map_nil]
      · rw [if_neg fun h => hx ((hf x).mp h), if_neg hx]
        cases split separator xs with
        | nil => rfl
        | cons field fields => rfl

/-- Characters in front of the letters stay as they are, and nothing else becomes one of them. -/
theorem lowerChar_eq_iff {c d : Char} (hd : d.toNat < 65) : lowerChar c = d ↔ c = d := by
  unfold lowerChar
  by_cases hc : 'A'.toNat ≤ c.toNat ∧ c.toNat ≤ 'Z'.toNat
  · have hlower : 'A'.toNat = 65 ∧ 'Z'.toNat = 90 := ⟨rfl, rfl⟩
    have hcode : (Char.ofNat (c.toNat + 32)).toNat = c.toNat + 32 := toNat_ofNat_ascii (by omega)
    rw [if_pos hc]
    refine iff_of_false (fun he => ?_) fun he => ?_
    · rw [he] at hcode
      omega
    · rw [he] at hc
      omega
  · rw [if_neg hc]

theorem toList_lower (s : String) : (lower s).toList = s.toList.map lowerChar :=
  String.toList_ofList

theorem lower_append (s t : String) : lower (s ++ t) = lower s ++ lower t := by
  rw [← String.toList_inj, String.toList_append]
  simp only [toList_lower, String.toList_append, List.map_append]

end Text

namespace Name

variable {zone name other : String}

/-! ### What a text stands for -/

/-- The labels of the absolute name for which a text stands in a zone. -/
def absoluteLabels (zone name : String) : List (List Char) :=
  if name = origin then labels zone
  else if isAbsolute name then labels name
  else labels name ++ labels zone

/-- Two texts stand for one name in a zone, ASCII letter case apart. -/
def AreAlike (zone name other : String) : Prop :=
  (absoluteLabels zone name).map (List.map Text.lowerChar)
    = (absoluteLabels zone other).map (List.map Text.lowerChar)

/-- The zone's name with one dot at its end. -/
theorem withFinalDot_eq (hzone : isValid zone = true) :
    Mailbox.withFinalDot zone = Text.trimEndDots zone ++ "." := by
  rw [← String.toList_inj, Mailbox.toList_withFinalDot, trimEndDots_of_isValid hzone,
    String.toList_append, String.toList_ofList]
  rfl

theorem qualify_origin (hzone : isValid zone = true) :
    qualify origin zone = Mailbox.withFinalDot zone := by
  rw [qualify, if_pos rfl, withFinalDot_eq hzone]

theorem qualify_relative (hzone : isValid zone = true) (hname : name ≠ origin)
    (h : isAbsolute name = false) :
    qualify name zone = name ++ "." ++ Mailbox.withFinalDot zone := by
  rw [qualify, if_neg hname, h, if_neg Bool.false_ne_true, withFinalDot_eq hzone,
    String.append_assoc]

theorem isAbsolute_append_withFinalDot (front zone : String) :
    isAbsolute (front ++ Mailbox.withFinalDot zone) = true := by
  rw [isAbsolute, String.toList_append, Mailbox.toList_withFinalDot, ← List.append_assoc,
    List.getLast?_concat]
  rfl

/-- Whether there is a dot at the end of the zone's name makes no difference. -/
theorem qualify_withFinalDot (name zone : String) :
    qualify name (Mailbox.withFinalDot zone) = qualify name zone := by
  have htrim : Text.trimEndDots (Mailbox.withFinalDot zone) = Text.trimEndDots zone := by
    unfold Mailbox.withFinalDot
    split
    · rfl
    · refine congrArg String.ofList ?_
      rw [String.toList_append]
      exact List.rdropWhile_concat_pos _ _ _ (by decide)
  rw [qualify, qualify, htrim]

/-- A text as an absolute name ends in a dot and has the labels that it stands for. -/
theorem labels_qualify (hzone : isValid zone = true) (name : String) :
    isAbsolute (qualify name zone) = true
      ∧ labels (qualify name zone) = absoluteLabels zone name := by
  unfold absoluteLabels
  by_cases hname : name = origin
  · rw [if_pos hname, hname, qualify_origin hzone]
    refine ⟨Mailbox.isAbsolute_withFinalDot zone, ?_⟩
    rw [labels, Mailbox.toList_withFinalDot, withoutFinalDot_append_dot, labels]
  · rw [if_neg hname]
    cases ha : isAbsolute name with
    | true =>
        rw [qualify_of_isAbsolute hname ha]
        exact ⟨ha, rfl⟩
    | false =>
        rw [if_neg Bool.false_ne_true]
        constructor
        · rw [qualify_relative hzone hname ha]
          exact isAbsolute_append_withFinalDot _ zone
        · rw [labels, qualify_of_relative hzone hname ha, withoutFinalDot_append_dot,
            Text.split_append_cons, labels, withoutFinalDot_of_relative ha, labels]

/-- Texts that end in a dot are the same in lower case exactly if their labels are. -/
theorem lower_eq_iff (h : isAbsolute name = true) (h' : isAbsolute other = true) :
    Text.lower name = Text.lower other
      ↔ (labels name).map (List.map Text.lowerChar)
        = (labels other).map (List.map Text.lowerChar) := by
  have hdot : ∀ c, Text.lowerChar c = '.' ↔ c = '.' := fun c =>
    Text.lowerChar_eq_iff (by decide)
  -- The dot at the end is the same, and what stands before it is determined by its fields.
  unfold labels
  rw [← String.toList_inj, Text.toList_lower, Text.toList_lower, toList_of_isAbsolute h,
    toList_of_isAbsolute h', List.map_append, List.map_append, List.append_left_inj,
    withoutFinalDot_append_dot, withoutFinalDot_append_dot, ← Text.split_map hdot,
    ← Text.split_map hdot, (Text.split_injective '.').eq_iff]

/-- Texts made absolute are the same in lower case exactly if they stand for one name. -/
theorem lower_qualify_eq_iff (hzone : isValid zone = true) :
    Text.lower (qualify name zone) = Text.lower (qualify other zone)
      ↔ AreAlike zone name other := by
  rcases labels_qualify hzone name with ⟨ha, hlabels⟩
  rcases labels_qualify hzone other with ⟨ha', hlabels'⟩
  rw [lower_eq_iff ha ha', hlabels, hlabels', AreAlike]

/-! ### Other spellings -/

/-- A name of a zone is written in another way. -/
inductive IsRespelling (zone : String) : String → String → Prop
  /-- With other letters in upper case. -/
  | letterCase {name other : String} (hname : name ≠ origin)
      (h : Text.lower other = Text.lower name) : IsRespelling zone name other
  /-- A relative name with the zone's name and one dot behind it. -/
  | absolute {name : String} (hname : name ≠ origin) (h : isAbsolute name = false) :
      IsRespelling zone name (name ++ "." ++ Mailbox.withFinalDot zone)
  /-- The zone's own name with one dot in place of the sign. -/
  | origin : IsRespelling zone origin (Mailbox.withFinalDot zone)

/-- What depends on no letter is the same in texts that are the same in lower case. -/
theorem isAbsolute_eq_of_lower_eq (h : Text.lower other = Text.lower name) :
    isAbsolute other = isAbsolute name := by
  have hlast : ∀ text : String,
      isAbsolute text = ((Text.lower text).toList.getLast? == some '.') := by
    intro text
    rw [isAbsolute, Text.toList_lower, List.getLast?_map]
    cases text.toList.getLast? with
    | none => rfl
    | some c =>
        rw [Option.map_some, Option.some_beq_some, Option.some_beq_some, Bool.eq_iff_iff,
          beq_iff_eq, beq_iff_eq, Text.lowerChar_eq_iff (by decide)]
  rw [hlast, hlast, h]

theorem ne_origin_of_lower_eq (h : Text.lower other = Text.lower name) (hname : name ≠ origin) :
    other ≠ origin := by
  rintro rfl
  have hmap : name.toList.map Text.lowerChar = ['@'] := by
    rw [← Text.toList_lower, ← h]
    rfl
  rcases List.map_eq_singleton_iff.mp hmap with ⟨c, hlist, hc⟩
  rw [Text.lowerChar_eq_iff (by decide)] at hc
  rw [hc] at hlist
  exact hname (String.toList_inj.mp hlist)

/-- Another spelling of a name compares as the first does. -/
theorem IsRespelling.lower_qualify_eq (hzone : isValid zone = true)
    (h : IsRespelling zone name other) :
    Text.lower (qualify other zone) = Text.lower (qualify name zone) := by
  cases h with
  | letterCase hname h =>
      have hother := ne_origin_of_lower_eq h hname
      have habsolute := isAbsolute_eq_of_lower_eq h
      cases ha : isAbsolute name with
      | true =>
          rw [qualify_of_isAbsolute hname ha, qualify_of_isAbsolute hother (habsolute.trans ha), h]
      | false =>
          rw [qualify_relative hzone hname ha, qualify_relative hzone hother (habsolute.trans ha)]
          simp only [Text.lower_append, h]
  | absolute hname h =>
      have ha := isAbsolute_append_withFinalDot (name ++ ".") zone
      -- The sign for the zone itself has no dot at its end.
      have hne : name ++ "." ++ Mailbox.withFinalDot zone ≠ Name.origin := fun he =>
        absurd (he ▸ ha) (by decide)
      rw [qualify_of_isAbsolute hne ha, qualify_relative hzone hname h]
  | origin =>
      have ha := Mailbox.isAbsolute_withFinalDot zone
      have hne : Mailbox.withFinalDot zone ≠ Name.origin := fun he => absurd (he ▸ ha) (by decide)
      rw [qualify_of_isAbsolute hne ha, qualify_origin hzone]

end Name

end DnsZones
