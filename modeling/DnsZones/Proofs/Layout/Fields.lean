import DnsZones.Layout
import DnsZones.Proofs.Address

/-!
# Fields of a Line

What can be read off the line of a record with one value.

A line is fields with blanks between them, and perhaps a comment. The columns are
filled up and never cut, and neither class nor time to live says what it is, so it
is not obvious that two records never share a line. They do not as long as no field
has a blank or a semicolon in it, or is empty. The first semicolon is then the one
before the comment, and the fields are the words in front of it. Name and type come
first and the value comes last. What stands between them is a class or a time to
live, and no class is a number.

Only an empty class is lost, which is written as no class is.

## Main definitions

* `Text.words`: What stands between blanks.
* `Layout.IsField`: A text that is one word, and no comment.
* `Layout.HasFields`: A record whose fields are fields.
* `Layout.columns`: The fields before the value.

## Theorems

* `Layout.words_header`: The fields are the words of a line.
* `Layout.single_eq_iff`: A line determines its record.
-/

namespace DnsZones

/-! ### Words -/

namespace Text

variable {xs ys : List Char}

/-- The words of a text: what stands between blanks. -/
def words (cs : List Char) : List (List Char) := (split ' ' cs).filter fun word => !word.isEmpty

theorem words_append_cons (xs ys : List Char) : words (xs ++ ' ' :: ys) = words xs ++ words ys := by
  unfold words
  rw [split_append_cons, List.filter_append]

theorem words_of_not_mem (hne : xs ≠ []) (h : ' ' ∉ xs) : words xs = [xs] := by
  unfold words
  rw [split_of_not_mem h]
  refine List.filter_cons_of_pos ?_
  rw [Bool.not_eq_true', List.isEmpty_eq_false_iff]
  exact hne

/-- Blanks that fill up a column say nothing. -/
theorem words_append_blanks (xs : List Char) (n : Nat) :
    words (xs ++ List.replicate n ' ') = words xs := by
  induction n with
  | zero => rw [List.replicate_zero, List.append_nil]
  | succ n ih =>
      have hnone : words [] = [] := rfl
      rw [List.replicate_succ', ← List.append_assoc, words_append_cons, ih, hnone, List.append_nil]

/-- A text is divided in one way at its first separator. -/
theorem append_cons_inj {separator : Char} {xs' ys' : List Char} (h : separator ∉ xs)
    (h' : separator ∉ xs') (he : xs ++ separator :: ys = xs' ++ separator :: ys') :
    xs = xs' ∧ ys = ys' := by
  have hsplit := congrArg (split separator) he
  rw [split_append_cons, split_append_cons, split_of_not_mem h, split_of_not_mem h'] at hsplit
  have hfirst := (List.cons.inj hsplit).1
  rw [hfirst] at he
  exact ⟨hfirst, (List.cons.inj (List.append_cancel_left he)).2⟩

/-- The words of columns with one blank in front of each. -/
theorem words_append_columns (xs : List Char) (columns : List (List Char)) (rest : List Char) :
    words (xs ++ columns.flatMap (' ' :: ·) ++ ' ' :: rest)
      = words xs ++ columns.flatMap words ++ words rest := by
  induction columns generalizing xs with
  | nil => simp only [List.flatMap_nil, List.append_nil, words_append_cons]
  | cons column columns ih =>
      have hnext : xs ++ (column :: columns).flatMap (' ' :: ·) ++ ' ' :: rest
          = xs ++ ' ' :: (column ++ columns.flatMap (' ' :: ·) ++ ' ' :: rest) := by
        simp only [List.flatMap_cons, List.cons_append, List.append_assoc]
      rw [hnext, words_append_cons, ih, List.flatMap_cons]
      simp only [List.append_assoc]

end Text

namespace Layout

variable {record other : Record} {value value' : Value} {xs ys : List Char}

/-! ### Fields -/

/-- The characters to which a line gives no meaning. -/
def isPlain (c : Char) : Bool := c != ' ' && c != ';' && c != '\n'

/-- A text that is one word and no comment. -/
def IsField (cs : List Char) : Prop := cs ≠ [] ∧ ∀ c ∈ cs, isPlain c = true

instance (cs : List Char) : Decidable (IsField cs) :=
  decidable_of_iff (cs ≠ [] ∧ cs.all isPlain = true) (and_congr_right fun _ => List.all_eq_true)

theorem not_mem_of_isPlain {c : Char} (hc : isPlain c = false) (h : IsField xs) : c ∉ xs :=
  fun hm => absurd ((h.2 c hm).symm.trans hc) (by decide)

theorem words_of_isField (h : IsField xs) : Text.words xs = [xs] :=
  Text.words_of_not_mem h.1 (not_mem_of_isPlain rfl h)

theorem isPlain_of {p : Char → Bool} (hp : [' ', ';', '\n'].any p = false) {c : Char}
    (h : p c = true) : isPlain c = true := by
  have hne : ∀ d ∈ [' ', ';', '\n'], c ≠ d := by
    rintro d hd rfl
    exact absurd (hp.symm.trans (List.any_eq_true.mpr ⟨c, hd, h⟩)) (by decide)
  unfold isPlain
  rw [Bool.and_eq_true, Bool.and_eq_true, bne_iff_ne, bne_iff_ne, bne_iff_ne]
  exact ⟨⟨hne ' ' (by decide), hne ';' (by decide)⟩, hne '\n' (by decide)⟩

theorem isPlain_of_isDigit {c : Char} (h : c.isDigit = true) : isPlain c = true :=
  isPlain_of (by decide) h

theorem isPlain_of_isLabelChar {c : Char} (h : Name.isLabelChar c = true) : isPlain c = true :=
  isPlain_of (by decide) h

theorem isField_of_isValid {name : String} (h : Name.isValid name = true) :
    IsField name.toList := by
  refine ⟨Name.toList_ne_nil h, fun c hc => ?_⟩
  rcases Name.eq_dot_or_isLabelChar h hc with rfl | hlabel
  · rfl
  · exact isPlain_of_isLabelChar hlabel

theorem isField_of_ofString? {text : String} {address : IPv4}
    (h : IPv4.ofString? text = some address) : IsField text.toList := by
  refine ⟨fun hnil => ?_, fun c hc => ?_⟩
  · rw [IPv4.ofString?, hnil] at h
    cases h
  · rcases IPv4.eq_dot_or_isDigit_of_ofString? h hc with rfl | hdigit
    · rfl
    · exact isPlain_of_isDigit hdigit

theorem isField_decimal (n : Nat) : IsField (Numeral.decimal n).toList := by
  refine ⟨?_, fun c hc => isPlain_of_isDigit (Numeral.isDigit_of_mem_decimal hc)⟩
  rw [Numeral.decimal, String.toList_ofList]
  exact Nat.toDigits_ne_nil

theorem isField_of_mem_classes {text : String} (h : text ∈ Record.classes) (hne : text ≠ "") :
    IsField text.toList := by
  have hall : ∀ text ∈ Record.classes, text ≠ "" → IsField text.toList := by decide
  exact hall text h hne

/-- A record that may be written, so that its fields are seen again. -/
structure HasFields (record : Record) : Prop where
  name : IsField record.name.toList
  tag : IsField record.type.tag.toList
  /-- There is no class, or it is one of the DNS or empty. -/
  classText : ∀ text ∈ record.classText, text ∈ Record.classes

/-- The class that is written, if any. -/
def shownClass (record : Record) : Option String := record.classText.filter fun text => text ≠ ""

/-- Class and time to live, as far as they are written. -/
def optionalColumns (record : Record) : List (List Char) :=
  (shownClass record).toList.map String.toList
    ++ record.ttl.toList.map fun seconds => (Numeral.decimal seconds.toNat).toList

/-- The fields before the value. -/
def columns (record : Record) : List (List Char) :=
  record.name.toList :: record.type.tag.toList :: optionalColumns record

theorem mem_classes_of_shownClass (h : HasFields record) {text : String}
    (ht : shownClass record = some text) : text ∈ Record.classes ∧ text ≠ "" := by
  rw [shownClass, Option.filter_eq_some_iff, decide_eq_true_eq] at ht
  exact ⟨h.classText text ht.1, ht.2⟩

theorem isField_of_mem_optionalColumns (h : HasFields record) (hm : xs ∈ optionalColumns record) :
    IsField xs := by
  rcases List.mem_append.mp hm with hm | hm
  · rcases List.mem_map.mp hm with ⟨text, ht, rfl⟩
    rcases mem_classes_of_shownClass h (Option.mem_toList.mp ht) with ⟨hclass, hne⟩
    exact isField_of_mem_classes hclass hne
  · rcases List.mem_map.mp hm with ⟨seconds, -, rfl⟩
    exact isField_decimal _

/-! ### The header -/

theorem toList_padRight (width : Nat) (text : String) :
    (Text.padRight width text).toList
      = text.toList ++ List.replicate (width - text.length) ' ' := by
  rw [Text.padRight, Text.spaces, String.toList_append, String.toList_ofList]

/-- The fields of a header, with blanks after the first two and between all. -/
theorem toList_header (record : Record) :
    (header record).toList
      = record.name.toList ++ List.replicate (nameWidth - record.name.length) ' ' ++ ' '
        :: (record.type.tag.toList
          ++ List.replicate (typeWidth - record.type.tag.length) ' '
          ++ (optionalColumns record).flatMap (' ' :: ·)) := by
  rw [header, String.toList_append, String.toList_append, String.toList_append,
    String.toList_append, toList_padRight, toList_padRight, optionalColumns, shownClass]
  -- The class may be absent, empty or written, and the time to live absent or written.
  cases record.classText with
  | none =>
      cases record.ttl with
      | none => simp
      | some seconds => simp
  | some text =>
      by_cases he : text = ""
      · cases record.ttl with
        | none => simp [he]
        | some seconds => simp [he]
      · cases record.ttl with
        | none => simp [he, Option.filter]
        | some seconds => simp [he, Option.filter]

/-- The fields before the value are the words of the header. -/
theorem words_header (h : HasFields record) (rest : List Char) :
    Text.words ((header record).toList ++ ' ' :: rest) = columns record ++ Text.words rest := by
  have hwords : (optionalColumns record).flatMap Text.words = optionalColumns record := by
    rw [List.flatMap_congr fun column hm =>
      words_of_isField (isField_of_mem_optionalColumns h hm), List.flatMap_singleton']
  rw [toList_header, List.append_assoc, List.cons_append, Text.words_append_cons,
    Text.words_append_blanks, words_of_isField h.name, Text.words_append_columns,
    Text.words_append_blanks, words_of_isField h.tag, hwords]
  rfl

/-- A header has blanks in it, but no semicolon and no line break. -/
theorem eq_blank_or_isPlain_of_mem_header (h : HasFields record) {c : Char}
    (hc : c ∈ (header record).toList) : c = ' ' ∨ isPlain c = true := by
  rw [toList_header] at hc
  simp only [List.mem_append, List.mem_cons, List.mem_replicate, List.mem_flatMap] at hc
  rcases hc with (hname | ⟨-, hblank⟩) | hblank | (htag | ⟨-, hblank⟩) |
    ⟨column, hm, hblank | hcolumn⟩
  · exact Or.inr (h.name.2 c hname)
  · exact Or.inl hblank
  · exact Or.inl hblank
  · exact Or.inr (h.tag.2 c htag)
  · exact Or.inl hblank
  · exact Or.inl hblank
  · exact Or.inr ((isField_of_mem_optionalColumns h hm).2 c hcolumn)

/-! ### The line -/

theorem toList_single (record : Record) (value : Value) :
    (single record value).toList = (header record).toList ++ ' ' :: value.text.toList
      ++ (commentSuffix value.comment).toList := by
  rw [single, String.toList_append, String.toList_append, String.toList_append, List.append_assoc,
    List.append_assoc, List.append_assoc]
  rfl

theorem toList_commentSuffix_some (comment : String) :
    (commentSuffix (some comment)).toList = ' ' :: ';' :: comment.toList := by
  rw [commentSuffix, String.toList_append]
  rfl

/-- What stands before a comment and the comment are told apart by the first semicolon. -/
theorem append_commentSuffix_inj {comment comment' : Option String} (hx : ';' ∉ xs) (hy : ';' ∉ ys)
    (h : xs ++ (commentSuffix comment).toList = ys ++ (commentSuffix comment').toList) :
    xs = ys ∧ comment = comment' := by
  have hnone : (commentSuffix none).toList = [] := rfl
  have hmem : ∀ {zs : List Char} {text : String},
      ';' ∈ zs ++ (commentSuffix (some text)).toList := by
    intro zs text
    rw [toList_commentSuffix_some]
    exact List.mem_append_right _ (List.mem_cons_of_mem _ List.mem_cons_self)
  cases comment with
  | none =>
      cases comment' with
      | none =>
          rw [hnone, List.append_nil, List.append_nil] at h
          exact ⟨h, rfl⟩
      | some text =>
          rw [hnone, List.append_nil] at h
          exact absurd (h ▸ hmem) hx
  | some text =>
      cases comment' with
      | none =>
          rw [hnone, List.append_nil] at h
          exact absurd (h ▸ hmem) hy
      | some text' =>
          -- The blank before the semicolon belongs to what is in front of it.
          have hblank : ∀ {zs : List Char}, ';' ∉ zs → ';' ∉ zs ++ [' '] := by
            intro zs hz hm
            rcases List.mem_append.mp hm with hm | hm
            · exact hz hm
            · exact absurd hm (by decide)
          rw [toList_commentSuffix_some, toList_commentSuffix_some, List.append_cons,
            List.append_cons ys] at h
          rcases Text.append_cons_inj (hblank hx) (hblank hy) h with ⟨hxy, htext⟩
          exact ⟨List.append_cancel_right hxy, congrArg some (String.toList_inj.mp htext)⟩

/-- Class and time to live are told apart by their characters: no class is a number. -/
theorem filter_optionalColumns (h : HasFields record) :
    (optionalColumns record).filter (fun column => column.all Char.isDigit)
        = record.ttl.toList.map (fun seconds => (Numeral.decimal seconds.toNat).toList)
      ∧ (optionalColumns record).filter (fun column => !column.all Char.isDigit)
        = (shownClass record).toList.map String.toList := by
  have hclass : ∀ column ∈ (shownClass record).toList.map String.toList,
      column.all Char.isDigit = false := by
    have hletters : ∀ text ∈ Record.classes, text ≠ "" → text.toList.all Char.isDigit = false := by
      decide
    intro column hc
    rcases List.mem_map.mp hc with ⟨text, ht, rfl⟩
    rcases mem_classes_of_shownClass h (Option.mem_toList.mp ht) with ⟨hm, hne⟩
    exact hletters text hm hne
  have hnumber : ∀ column ∈ record.ttl.toList.map
      (fun seconds => (Numeral.decimal seconds.toNat).toList), column.all Char.isDigit = true := by
    intro column hc
    rcases List.mem_map.mp hc with ⟨seconds, -, rfl⟩
    exact List.all_eq_true.mpr fun c => Numeral.isDigit_of_mem_decimal
  unfold optionalColumns
  constructor
  · rw [List.filter_append, List.filter_eq_nil_iff.mpr, List.filter_eq_self.mpr, List.nil_append]
    · exact hnumber
    · exact fun column hc => by rw [hclass column hc]; decide
  · rw [List.filter_append, List.filter_eq_self.mpr, List.filter_eq_nil_iff.mpr, List.append_nil]
    · exact fun column hc => by rw [hnumber column hc]; decide
    · exact fun column hc => by rw [hclass column hc]; rfl

theorem optionalColumns_inj (h : HasFields record) (h' : HasFields other)
    (he : optionalColumns record = optionalColumns other) :
    shownClass record = shownClass other ∧ record.ttl = other.ttl := by
  rcases filter_optionalColumns h with ⟨hnumber, hclass⟩
  rcases filter_optionalColumns h' with ⟨hnumber', hclass'⟩
  rw [he, hnumber'] at hnumber
  rw [he, hclass'] at hclass
  have htext : Function.Injective String.toList := fun _ _ => String.toList_inj.mp
  have hseconds : Function.Injective fun seconds : UInt32 =>
      (Numeral.decimal seconds.toNat).toList := fun _ _ hs =>
    UInt32.toNat_inj.mp (Numeral.decimal_injective (String.toList_inj.mp hs))
  have hoption : ∀ {α : Type} {a b : Option α}, a.toList = b.toList → a = b := fun hab =>
    Option.head?_toList.symm.trans ((congrArg List.head? hab).trans Option.head?_toList)
  exact ⟨(hoption (List.map_injective_iff.mpr htext hclass)).symm,
    (hoption (List.map_injective_iff.mpr hseconds hnumber)).symm⟩

/-- A line with one value determines its record, but that an empty class is none. -/
theorem single_eq_iff (h : HasFields record) (h' : HasFields other)
    (hv : IsField value.text.toList) (hv' : IsField value'.text.toList) :
    single record value = single other value'
      ↔ record.name = other.name ∧ record.type = other.type
        ∧ shownClass record = shownClass other ∧ record.ttl = other.ttl ∧ value = value' := by
  constructor
  · intro he
    have hfront : ∀ {record : Record} {value : Value}, HasFields record →
        IsField value.text.toList → ';' ∉ (header record).toList ++ ' ' :: value.text.toList := by
      intro record value hr hvalue hm
      rcases List.mem_append.mp hm with hm | hm
      · exact absurd (eq_blank_or_isPlain_of_mem_header hr hm) (by decide)
      · rcases List.mem_cons.mp hm with hm | hm
        · exact absurd hm (by decide)
        · exact not_mem_of_isPlain rfl hvalue hm
    have hline := congrArg String.toList he
    rw [toList_single, toList_single] at hline
    rcases append_commentSuffix_inj (hfront h hv) (hfront h' hv') hline with ⟨hfields, hcomment⟩
    -- In front of the comment the words are the same, the value last.
    have hwords := congrArg Text.words hfields
    rw [words_header h, words_header h', words_of_isField hv, words_of_isField hv'] at hwords
    rcases List.append_inj' hwords rfl with ⟨hcolumns, hvalue⟩
    rcases List.cons.inj hcolumns with ⟨hname, hcolumns⟩
    rcases List.cons.inj hcolumns with ⟨htag, hcolumns⟩
    rcases optionalColumns_inj h h' hcolumns with ⟨hclass, httl⟩
    refine ⟨String.toList_inj.mp hname, RecordType.ext (String.toList_inj.mp htag), hclass, httl,
      ?_⟩
    rcases value with ⟨text, comment⟩
    rcases value' with ⟨text', comment'⟩
    exact congr (congrArg Value.mk (String.toList_inj.mp (List.singleton_inj.mp hvalue))) hcomment
  · rintro ⟨hname, htype, hclass, httl, rfl⟩
    have hheader : header record = header other := by
      rw [← String.toList_inj, toList_header, toList_header, optionalColumns, optionalColumns,
        hname, htype, hclass, httl]
    rw [single, single, hheader]

end Layout

end DnsZones
