import DnsZones.Proofs.Layout.Fields
import DnsZones.Rendering

/-!
# Lines of a Zone File

Which lines a zone file should have, and when these are its lines.

A zone file is written line by line: the directives, one line for a record with one
value, and for a list of values a header, a line for each value and the closing
parenthesis. Every line is followed by a line break. Whoever reads the file divides
it at its line breaks and gets the lines back, unless one of them has a line break
of its own. So accounting for the lines of a file comes down to the texts that may
hold one: the values and the comments. What the layout adds itself is harmless.

## Main definitions

* `Text.terminated`: Lines with a line break after each.
* `Layout.recordLines`, `Layout.fileLines`: The lines of a record and of a zone file.
* `Layout.IsOneLine`: A value without line breaks.
* `Layout.IsLineSafe`: A zone whose texts have no line breaks.

## Theorems

* `Text.split_terminated_iff`: When lines can be told apart again.
* `Layout.toList_record`: A record is written line by line.
* `Layout.recordLines_iff`: Only the values can break the lines of a record.
* `Layout.length_fileLines`: The number of lines.
* `Layout.fileLines_iff`: When no line has a line break of its own.
-/

namespace DnsZones

namespace Text

/-- Lines with a line break after each. -/
def terminated (lines : List (List Char)) : List Char := lines.flatMap (· ++ ['\n'])

theorem terminated_append (lines more : List (List Char)) :
    terminated (lines ++ more) = terminated lines ++ terminated more := List.flatMap_append

/-- Lines are told apart again exactly if none of them has a line break of its own. Behind the last
    one there is nothing. -/
theorem split_terminated_iff {lines : List (List Char)} :
    split '\n' (terminated lines) = lines ++ [[]] ↔ ∀ line ∈ lines, '\n' ∉ line := by
  constructor
  · intro h line hm
    have hsplit : line ∈ split '\n' (terminated lines) := by
      rw [h]
      exact List.mem_append_left _ hm
    exact not_mem_of_mem_split hsplit
  · intro h
    induction lines with
    | nil => rfl
    | cons line lines ih =>
        have hline : terminated (line :: lines) = line ++ '\n' :: terminated lines := by
          rw [terminated, List.flatMap_cons, List.append_assoc]
          rfl
        rw [hline, split_append_cons, split_of_not_mem (h line List.mem_cons_self),
          ih fun line hm => h line (List.mem_cons_of_mem _ hm)]
        rfl

end Text

namespace Layout

variable {record : Record} {value : Value} {zone : Zone} {name : String} {width : Nat}

/-! ### The lines of a record -/

/-- A value of a list on its line. -/
def valueText (width : Nat) (value : Value) : String :=
  match value.comment with
  | some comment => indent ++ Text.padRight width value.text ++ " ;" ++ comment
  | none => indent ++ value.text

theorem valueLine_eq (width : Nat) (value : Value) :
    valueLine width value = valueText width value ++ "\n" := by
  unfold valueLine valueText
  cases value.comment with
  | none => rfl
  | some comment => rfl

/-- The lines of a record: one for a single value, and two more than there are values for a list. -/
def recordLines (record : Record) : List String :=
  match record.data with
  | .single value => [single record value]
  | .multi values =>
    (header record ++ " (") :: (values.map (valueText (commentColumn values)) ++ [")"])

/-- The number of lines of a record. -/
def lineCount (record : Record) : Nat :=
  match record.data with
  | .single _ => 1
  | .multi values => values.length + 2

/-- The number of lines of records in a row. -/
def lineCounts : List (String × Record) → Nat
  | [] => 0
  | (_, record) :: rest => lineCount record + lineCounts rest

theorem length_recordLines (record : Record) : (recordLines record).length = lineCount record := by
  unfold recordLines lineCount
  cases record.data with
  | single value => rfl
  | multi values => simp

theorem length_flatMap_recordLines (entries : List (String × Record)) :
    (entries.flatMap fun e => recordLines e.2).length = lineCounts entries := by
  induction entries with
  | nil => rfl
  | cons e rest ih =>
      rw [List.flatMap_cons, List.length_append, length_recordLines, ih]
      rfl

/-- A record is written line by line. -/
theorem toList_record (record : Record) :
    (Layout.record record ++ "\n").toList
      = Text.terminated ((recordLines record).map String.toList) := by
  unfold Layout.record recordLines
  cases record.data with
  | single value => simp [Text.terminated]
  | multi values =>
      have hvalues : (String.join (values.map (valueLine (commentColumn values)))).toList
          = Text.terminated
              ((values.map (valueText (commentColumn values))).map String.toList) := by
        rw [String.toList_join, Text.terminated, List.flatMap_map, List.flatMap_map,
          List.flatMap_map]
        exact List.flatMap_congr fun value _ => by
          rw [valueLine_eq, String.toList_append]
          rfl
      change (multi record values ++ "\n").toList = _
      rw [multi, String.toList_append, String.toList_append, String.toList_append,
        String.toList_append, hvalues]
      simp [Text.terminated]

/-- No record is written as the empty text, since there are blanks between its columns. -/
theorem record_ne (record : Record) : Layout.record record ≠ "" := by
  have hheader : header record ≠ "" := by
    simp only [header, ne_eq, String.append_eq_empty_iff, String.reduceEq, and_false, false_and,
      not_false_eq_true]
  unfold Layout.record
  cases record.data with
  | single value =>
      simp only [single, ne_eq, String.append_eq_empty_iff, hheader, false_and, not_false_eq_true]
  | multi values =>
      simp only [multi, ne_eq, String.append_eq_empty_iff, hheader, false_and, not_false_eq_true]

/-! ### Line breaks -/

/-- The values of a record, of either form. -/
def values (record : Record) : List Value :=
  match record.data with
  | .single value => [value]
  | .multi values => values

/-- A value without line breaks, in its text or in its comment. -/
def IsOneLine (value : Value) : Prop :=
  '\n' ∉ value.text.toList ∧ ∀ comment ∈ value.comment, '\n' ∉ comment.toList

theorem not_mem_commentSuffix_iff {comment : Option String} :
    '\n' ∉ (commentSuffix comment).toList ↔ ∀ text ∈ comment, '\n' ∉ text.toList := by
  cases comment with
  | none => exact ⟨fun _ => nofun, fun _ => List.not_mem_nil⟩
  | some text =>
      rw [toList_commentSuffix_some]
      simp

theorem not_mem_header (h : HasFields record) : '\n' ∉ (header record).toList := fun hm =>
  absurd (eq_blank_or_isPlain_of_mem_header h hm) (by decide)

theorem not_mem_single_iff (h : HasFields record) :
    '\n' ∉ (single record value).toList ↔ IsOneLine value := by
  rw [toList_single, IsOneLine, ← not_mem_commentSuffix_iff]
  have hheader := not_mem_header h
  simp [hheader]

theorem not_mem_valueText_iff : '\n' ∉ (valueText width value).toList ↔ IsOneLine value := by
  have hindent : '\n' ∉ indent.toList := by decide
  unfold valueText IsOneLine
  cases value.comment with
  | none => simp [hindent]
  | some comment => simp [hindent, toList_padRight]

/-- Only the values can break the lines of a record. -/
theorem recordLines_iff (h : HasFields record) :
    (∀ line ∈ recordLines record, '\n' ∉ line.toList)
      ↔ ∀ value ∈ values record, IsOneLine value := by
  unfold recordLines values
  cases record.data with
  | single value => simp [not_mem_single_iff h]
  | multi values =>
      have hheader : '\n' ∉ (header record ++ " (").toList := by
        rw [String.toList_append, List.mem_append]
        exact fun hm => hm.elim (not_mem_header h) (by decide)
      rw [List.forall_mem_cons, List.forall_mem_append, List.forall_mem_map]
      simp only [not_mem_valueText_iff, List.forall_mem_singleton]
      exact ⟨fun hlines => hlines.2.1, fun hvalues => ⟨hheader, hvalues, by decide⟩⟩

/-! ### The lines of a zone file -/

/-- The lines of a zone file: the directives, then those of the records in identifier order. -/
def fileLines (name : String) (zone : Zone) : List String :=
  ("$ORIGIN " ++ name) :: ((zone.ttl.bind ttlDirective).toList
    ++ zone.records.entries.flatMap fun e => recordLines e.2)

/-- A directive for the time to live takes a line if it has a value. -/
def hasDirective (zone : Zone) : Bool := (zone.ttl.bind (·.value)).isSome

theorem length_fileLines (name : String) (zone : Zone) :
    (fileLines name zone).length
      = 1 + (hasDirective zone).toNat + lineCounts zone.records.entries := by
  have hdirective : (zone.ttl.bind ttlDirective).toList.length = (hasDirective zone).toNat := by
    unfold hasDirective
    cases zone.ttl with
    | none => rfl
    | some directive =>
        cases hv : directive.value with
        | none => simp [ttlDirective, hv]
        | some seconds => simp [ttlDirective, hv]
  rw [fileLines, List.length_cons, List.length_append, hdirective, length_flatMap_recordLines]
  omega

/-- The texts of a zone that are written as they are, none of them with a line break. -/
structure IsLineSafe (name : String) (zone : Zone) : Prop where
  name : '\n' ∉ name.toList
  directive : ∀ directive ∈ zone.ttl, directive.value.isSome = true →
    ∀ comment ∈ directive.comment, '\n' ∉ comment.toList
  values : ∀ e ∈ zone.records.entries, ∀ value ∈ values e.2, IsOneLine value

theorem not_mem_ttlDirective_iff {directive : TtlDirective} :
    (∀ line ∈ ttlDirective directive, '\n' ∉ line.toList)
      ↔ (directive.value.isSome = true → ∀ comment ∈ directive.comment, '\n' ∉ comment.toList) := by
  unfold ttlDirective
  cases directive.value with
  | none => simp
  | some seconds =>
      have hnumber := not_mem_of_isPlain (c := '\n') rfl (isField_decimal seconds.toNat)
      have hdirective : '\n' ∉ "$TTL ".toList := by decide
      simp only [Option.map_some, Option.mem_some_iff, forall_eq', String.toList_append,
        List.mem_append, hnumber, hdirective, false_or, not_mem_commentSuffix_iff,
        Option.isSome_some, forall_const]

/-- The lines of a zone file are without line breaks exactly if these texts are. -/
theorem fileLines_iff (h : ∀ e ∈ zone.records.entries, HasFields e.2) :
    (∀ line ∈ fileLines name zone, '\n' ∉ line.toList) ↔ IsLineSafe name zone := by
  have horigin : '\n' ∉ ("$ORIGIN " ++ name).toList ↔ '\n' ∉ name.toList := by
    have hword : '\n' ∉ "$ORIGIN ".toList := by decide
    rw [String.toList_append, List.mem_append, or_iff_right hword]
  have hdirective : (∀ line ∈ (zone.ttl.bind ttlDirective).toList, '\n' ∉ line.toList)
      ↔ ∀ directive ∈ zone.ttl, directive.value.isSome = true →
        ∀ comment ∈ directive.comment, '\n' ∉ comment.toList := by
    cases zone.ttl with
    | none => simp
    | some directive =>
        simp only [Option.bind_some, Option.mem_toList, Option.mem_some_iff, forall_eq']
        exact not_mem_ttlDirective_iff
  have hrecords : (∀ line ∈ zone.records.entries.flatMap fun e => recordLines e.2,
        '\n' ∉ line.toList)
      ↔ ∀ e ∈ zone.records.entries, ∀ value ∈ values e.2, IsOneLine value := by
    simp only [List.mem_flatMap]
    constructor
    · exact fun hlines e he => (recordLines_iff (h e he)).mp fun line hm => hlines line ⟨e, he, hm⟩
    · rintro hvalues line ⟨e, he, hm⟩
      exact (recordLines_iff (h e he)).mpr (hvalues e he) line hm
  rw [fileLines, List.forall_mem_cons, List.forall_mem_append, horigin, hdirective, hrecords]
  exact ⟨fun hall => ⟨hall.1, hall.2.1, hall.2.2⟩, fun hall => ⟨hall.1, hall.2, hall.3⟩⟩

end Layout

end DnsZones
