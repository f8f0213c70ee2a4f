import DnsZones.Proofs.Layout.Fields
import Mathlib.Data.List.Forall2

/-!
# Columns of a Zone File

Where the fields of a record stand, and where its comments do.

Names and types are filled up to their columns and never cut, so the field after them has
its place unless one of them is too long, and then it is moved by what they have too many.
The two forms of a record do not differ in that.

The comments of a list are a different matter. The width of their column is the byte
length of the longest value, but a value is filled up in characters. They stand under each
other all the same. Every character has a byte at least, so no value has more characters
than the longest has bytes, and filling up brings each value to the same width. Values
without a comment count for the width and are not filled up.

## Main definitions

* `Layout.IsFilled`: A text in a column.
* `Layout.IsLeading`: What stands before the field after the type.
* `Layout.longest`: The byte length of the longest value.
* `Layout.IsEntry`: A value of a list as written, with its comment at a given place.

## Theorems

* `Text.length_le_utf8ByteSize`: No text has more characters than bytes.
* `Layout.isLeading_leading`: Name and type are whole and in their columns.
* `Layout.isEntry_valueLine`: A value whose text fits is written with its comment in the column.
* `Layout.aligned_columns`: The columns of a record.
-/

namespace DnsZones

/-! ### Characters and bytes -/

namespace Text

/-- No text has more characters than bytes. -/
theorem length_le_utf8ByteSize (text : String) : text.length ≤ text.utf8ByteSize := by
  have hchars : ∀ cs : List Char, cs.length ≤ String.utf8Len cs := by
    intro cs
    induction cs with
    | nil => exact Nat.zero_le _
    | cons c cs ih =>
        have hc := Char.utf8Size_pos c
        rw [List.length_cons, String.utf8Len_cons]
        omega
  rw [← String.length_toList, ← String.utf8Len_toList]
  exact hchars text.toList

end Text

namespace Layout

variable {record : Record} {value : Value} {values : List Value} {width : Nat}

/-! ### Name and type -/

/-- A text in a column: the text whole and blanks behind it, with which it has the width of the
    column. A longer text is a column of its own width. -/
structure IsFilled (width : Nat) (text : String) (column : List Char) : Prop where
  whole : ∃ blanks, column = text.toList ++ List.replicate blanks ' '
  length : column.length = max width text.length

/-- What stands before the field after the type: name and type in columns of 40 and 6 characters,
    and a blank after each. -/
structure IsLeading (record : Record) (front : List Char) : Prop where
  columns : ∃ first second, IsFilled 40 record.name first ∧ IsFilled 6 record.type.tag second
    ∧ front = first ++ ' ' :: (second ++ [' '])
  length : front.length = max 40 record.name.length + max 6 record.type.tag.length + 2

theorem isFilled_padRight (width : Nat) (text : String) :
    IsFilled width text (Text.padRight width text).toList where
  whole := ⟨width - text.length, toList_padRight width text⟩
  length := by
    rw [toList_padRight, List.length_append, List.length_replicate, String.length_toList]
    omega

/-- The part of a header that is in columns. -/
def leading (record : Record) : List Char :=
  (Text.padRight nameWidth record.name).toList ++ ' '
    :: ((Text.padRight typeWidth record.type.tag).toList ++ [' '])

theorem isLeading_leading (record : Record) : IsLeading record (leading record) := by
  have hname : IsFilled 40 record.name _ := isFilled_padRight nameWidth record.name
  have htag : IsFilled 6 record.type.tag _ := isFilled_padRight typeWidth record.type.tag
  refine ⟨⟨_, _, hname, htag, rfl⟩, ?_⟩
  rw [leading, List.length_append, List.length_cons, List.length_append, hname.length,
    htag.length, List.length_singleton]
  omega

/-- A header and a field behind it: the part in columns, and then fields with a blank after each. -/
theorem toList_header_append (record : Record) (field : List Char) :
    (header record).toList ++ ' ' :: field
      = leading record ++ (optionalColumns record).flatMap (· ++ [' ']) ++ field := by
  -- A blank before each field and one more is one more blank and one after each.
  have hblanks : ∀ columns : List (List Char), columns.flatMap (' ' :: ·) ++ ' ' :: field
      = ' ' :: (columns.flatMap (· ++ [' ']) ++ field) := by
    intro columns
    induction columns with
    | nil => rfl
    | cons column columns ih =>
        rw [List.flatMap_cons, List.flatMap_cons, List.append_assoc, ih]
        simp only [List.cons_append, List.append_assoc, List.nil_append]
  rw [toList_header, leading, toList_padRight, toList_padRight]
  simp only [List.append_assoc, List.cons_append, hblanks, List.nil_append]

/-! ### Values -/

/-- The byte length of the longest value, with a comment or without. -/
def longest (values : List Value) : Nat :=
  (values.map fun value => value.text.utf8ByteSize).max?.getD 0

theorem commentColumn_eq (values : List Value) : commentColumn values = longest values := by
  unfold commentColumn longest
  cases values with
  | nil => rfl
  | cons value values =>
      rw [List.map_cons, List.max?_cons', Option.getD_some, List.foldl_map, List.foldl_cons,
        Nat.zero_max]

/-- No value has more characters than the longest has bytes. -/
theorem length_le_longest (h : value ∈ values) : value.text.length ≤ longest values :=
  calc
    value.text.length ≤ value.text.utf8ByteSize := Text.length_le_utf8ByteSize _
    _ ≤ longest values :=
      List.le_max?_getD_of_mem (List.mem_map_of_mem (f := fun value => value.text.utf8ByteSize) h)

/-- A value of a list as written: whole after four blanks. A comment stands behind it with its
    semicolon at a given place, counted from the start of the entry, and nothing but blanks between
    the two. Without a comment there is nothing behind the value. -/
inductive IsEntry (place : Nat) : Value → List Char → Prop
  | bare (text : String) : IsEntry place ⟨text, none⟩ ("    ".toList ++ text.toList ++ ['\n'])
  | commented (text comment : String) (blanks : Nat) {front : List Char}
      (hfront : front = "    ".toList ++ text.toList ++ List.replicate blanks ' ')
      (hplace : front.length = place) :
      IsEntry place ⟨text, some comment⟩ (front ++ ';' :: (comment.toList ++ ['\n']))

/-- A value whose text fits is written with its comment in the column. -/
theorem isEntry_valueLine (h : value.text.length ≤ width) :
    IsEntry (4 + width + 1) value (valueLine width value).toList := by
  rcases value with ⟨text, comment⟩
  cases comment with
  | none =>
      rw [valueLine, String.toList_append, String.toList_append]
      exact IsEntry.bare text
  | some comment =>
      have hline : (valueLine width ⟨text, some comment⟩).toList
          = (indent.toList ++ text.toList ++ List.replicate (width - text.length + 1) ' ')
            ++ ';' :: (comment.toList ++ ['\n']) := by
        simp [valueLine, toList_padRight, List.replicate_succ']
      rw [hline]
      refine IsEntry.commented text comment _ rfl ?_
      have hindent : indent.toList.length = 4 := rfl
      dsimp only at h
      rw [List.length_append, List.length_append, List.length_replicate, hindent,
        String.length_toList]
      omega

/-- The values of a list are written in order, with their comments in one column. -/
theorem forall₂_isEntry (values : List Value) :
    List.Forall₂ (IsEntry (4 + longest values + 1)) values
      (values.map fun value => (valueLine (longest values) value).toList) := by
  rw [List.forall₂_map_right_iff, List.forall₂_same]
  exact fun value hm => isEntry_valueLine (length_le_longest hm)

/-! ### Both forms -/

/-- A list as a header with the opening parenthesis, the entries and the closing parenthesis. -/
theorem toList_multi (record : Record) (values : List Value) :
    (multi record values).toList
      = (header record).toList ++ ' ' :: ('(' :: '\n' :: (
        (values.map fun value => (valueLine (longest values) value).toList).flatten ++ [')'])) := by
  have hlines : (String.join (values.map (valueLine (longest values)))).toList
      = (values.map fun value => (valueLine (longest values) value).toList).flatten := by
    rw [String.toList_join, List.flatMap_map, List.flatMap_def]
  rw [multi, commentColumn_eq, String.toList_append, String.toList_append, String.toList_append,
    hlines, List.append_assoc, List.append_assoc]
  rfl

/-- **The columns of a record.** Before the first field after the type there are name and type,
    whole and filled up, in one form as in the other. In a list every value is written whole and in
    order, and all comments stand at one place, which is given by the value that has the most
    bytes. -/
theorem aligned_columns (record : Record) :
    ∃ front, IsLeading record front
      ∧ (∀ value, (single record value).toList
        = front ++ (optionalColumns record).flatMap (· ++ [' ']) ++ value.text.toList
          ++ (commentSuffix value.comment).toList)
      ∧ ∀ values, ∃ entries, List.Forall₂ (IsEntry (4 + longest values + 1)) values entries
        ∧ (multi record values).toList
          = front ++ (optionalColumns record).flatMap (· ++ [' '])
            ++ '(' :: '\n' :: (entries.flatten ++ [')']) := by
  refine ⟨leading record, isLeading_leading record, fun value => ?_, fun values => ?_⟩
  · rw [toList_single, toList_header_append]
  · exact ⟨_, forall₂_isEntry values, by rw [toList_multi, toList_header_append]⟩

end Layout

end DnsZones
