import DnsZones.Proofs.Json.Shape

/-!
# Definitions There and Back

A definition that was written is read again as the same definition.

A record is written as one flat object, whose members say by being there which
form the record has. Only one record cannot be told from its document: one that
holds an empty list leaves nothing to write, and is read as a record with an
empty value. No document is read as such a record, so it never comes out of a
definition or a message.

The two forms share their document, and so a document may ask for both at once.
That is the one way in which members that are each in order can contradict one
another.

## Main definitions

* `Record.IsWhole`, `Zone.IsWhole`, `Zones.IsWhole`: No record holds an empty list.
* `Record.GivesBoth`: A document that asks for both forms.

## Theorems

* `Record.ofJson_toJson`, `Zone.ofJson_toJson`, `Zones.ofJson_toJson`: What was written
  is read back.
* `Record.isWhole_of_ofJson`, `Zone.isWhole_of_ofJson`, `Zones.isWhole_of_ofJson`: What was
  read is whole.
* `Record.ofJson_of_wellFormed`: When a record is rejected for having both forms.
-/

namespace DnsZones

open Json

/-! ### Values, configurations and directives -/

/-- A value is read back. -/
theorem Value.ofJson_toJson (value : Value) : ofJson value.toJson = .ok value := by
  rcases value with ⟨text, _ | comment⟩
  · rfl
  · rfl

/-- A configuration is read back. -/
theorem Config.ofJson_toJson (config : Config) : ofJson config.toJson = .ok config := rfl

/-- A directive is read back, also if it has no value. -/
theorem TtlDirective.ofJson_toJson (ttl : TtlDirective) : ofJson ttl.toJson = .ok ttl := by
  rcases ttl with ⟨value, comment⟩
  have hcomment : ∀ x, readMembers Fields.take ⟨x, none⟩ (optionalText "comment" comment)
      = .ok ⟨x, comment.map some⟩ := by
    intro x
    rw [optionalText_eq]
    exact readMembers_optionalMember (fun y => Fields.mk x y) (fun _ => rfl) comment
  cases value with
  | none =>
      simp only [ofJson, toJson, members, bind, Except.bind, readMembers, Fields.take, once,
        asOptional, Except.map, hcomment, Option.join_some, join_map_some]
      rfl
  | some n =>
      simp only [ofJson, toJson, members, bind, Except.bind, readMembers, Fields.take, once,
        asOptional_natural, Except.map, hcomment, Option.join_some, join_map_some]
      rfl

/-! ### Records -/

namespace Record

/-- A record that does not hold an empty list. -/
def IsWhole (record : Record) : Prop := record.data ≠ .multi []

/-- What is known of the fields of a record when its document has been read. -/
def fields (record : Record) : Fields where
  name := some record.name
  type := some record.type.tag
  classText := record.classText.map some
  ttl := record.ttl.map some
  value := record.single?.map fun value => some value.text
  comment := record.single?.bind fun value => value.comment.map some
  values := record.multi?

/-- The form of a record is told by the members that are there. -/
theorem readMembers_dataMembers {record : Record} (h : record.IsWhole) {known : Fields}
    (hvalue : known.value = none) (hcomment : known.comment = none)
    (hvalues : known.values = none) :
    readMembers Fields.take known (dataMembers record.data)
      = .ok { known with
          value := record.fields.value, comment := record.fields.comment,
          values := record.fields.values } := by
  cases hd : record.data with
  | single value =>
      rcases value with ⟨text, comment⟩
      cases comment with
      | none => simp only [dataMembers, optionalText, readMembers, Fields.take, once, hvalue,
          hcomment, hvalues, asOptional_text, Except.map, fields, single?, multi?, hd,
          Option.map_some, Option.map_none, Option.bind_some]
      | some comment => simp only [dataMembers, optionalText, readMembers, Fields.take, once,
          hvalue, hcomment, hvalues, asOptional_text, Except.map, fields, single?, multi?, hd,
          Option.map_some, Option.bind_some]
  | multi values =>
      cases values with
      -- An empty list would leave no member behind.
      | nil => exact absurd hd h
      | cons first rest =>
          have hlist : asList Value.ofJson (.array ((first :: rest).map Value.toJson))
              = .ok (first :: rest) :=
            readItems_map fun value _ => value.ofJson_toJson
          simp only [dataMembers, readMembers, Fields.take, once, hvalue, hcomment, hvalues, hlist,
            Except.map, fields, single?, multi?, hd, Option.map_none, Option.bind_none]

/-- Read the fields of a record. -/
def readFields (json : Json) : Reading Fields :=
  (members fieldNames json).bind fun entries => readMembers Fields.take {} entries

/-- The record with the given fields. -/
def ofFields (fields : Fields) : Reading Record :=
  match combine fields.value.join fields.comment.join (fields.values.getD []) with
  | .error _ => .error .conflict
  | .ok data =>
    .ok {
      name := fields.name.getD ""
      type := RecordType.ofText (fields.type.getD "")
      classText := fields.classText.join
      ttl := fields.ttl.join
      data := data }

/-- A record is read by its fields. -/
theorem ofJson_eq (json : Json) : ofJson json = (readFields json).bind ofFields := by
  rw [ofJson, readFields]
  cases members fieldNames json with
  | error error => rfl
  | ok entries => rfl

/-- The members of a written record are taken into its fields. -/
theorem readFields_toJson {record : Record} (h : record.IsWhole) :
    readFields record.toJson = .ok record.fields := by
  rcases record with ⟨name, type, classText, ttl, data⟩
  have hclass : readMembers Fields.take ⟨some name, some type.tag, none, none, none, none, none⟩
      (optionalText "class" classText)
        = .ok ⟨some name, some type.tag, classText.map some, none, none, none, none⟩ := by
    rw [optionalText_eq]
    exact readMembers_optionalMember
      (fun x => Fields.mk (some name) (some type.tag) x none none none none) (fun _ => rfl) _
  have httl : ∀ x, readMembers Fields.take ⟨some name, some type.tag, x, none, none, none, none⟩
      (optionalWord "ttl" ttl)
        = .ok ⟨some name, some type.tag, x, ttl.map some, none, none, none⟩ := by
    intro x
    rw [optionalWord_eq]
    exact readMembers_optionalMember
      (fun y => Fields.mk (some name) (some type.tag) x y none none none)
      (fun n => map_once_eq_ok_iff.mpr ⟨rfl, some n, asOptional_natural n, rfl⟩) _
  -- The first two members are always there, the others come in three groups.
  change readMembers Fields.take ⟨some name, some type.tag, none, none, none, none, none⟩
    (optionalText "class" classText ++ optionalWord "ttl" ttl ++ dataMembers data) = _
  rw [readMembers_append, readMembers_append, hclass, Except.bind, httl, Except.bind]
  exact readMembers_dataMembers h rfl rfl rfl

/-- The form that the fields of a whole record give is the record's own. -/
theorem combine_fields {record : Record} (h : record.IsWhole) :
    combine record.fields.value.join record.fields.comment.join (record.fields.values.getD [])
      = .ok record.data := by
  cases hd : record.data with
  | single value =>
      rcases value with ⟨text, _ | comment⟩
      · simp only [fields, single?, multi?, hd]
        rfl
      · simp only [fields, single?, multi?, hd]
        rfl
  | multi values =>
      cases values with
      | nil => exact absurd hd h
      | cons first rest =>
          simp only [fields, single?, multi?, hd]
          rfl

/-- A whole record is made again of its fields. -/
theorem ofFields_fields {record : Record} (h : record.IsWhole) :
    ofFields record.fields = .ok record := by
  rw [ofFields, combine_fields h]
  simp only [fields, Option.getD_some, RecordType.ofText_tag, join_map_some]

/-- A whole record is read back. -/
theorem ofJson_toJson {record : Record} (h : record.IsWhole) :
    ofJson record.toJson = .ok record := by
  rw [ofJson_eq, readFields_toJson h]
  exact ofFields_fields h

/-- A value and a list cannot be combined, and any other choice has a form. -/
theorem combine_eq_error_iff {value comment : Option String} {values : List Value} :
    (∃ fault, combine value comment values = .error fault)
      ↔ values ≠ [] ∧ (value ≠ none ∨ comment ≠ none) := by
  cases values with
  | nil => simp only [combine, reduceCtorEq, exists_false, ne_eq, not_true_eq_false, false_and]
  | cons first rest =>
      cases value with
      | some text => simp only [combine, Except.error.injEq, exists_eq', ne_eq, reduceCtorEq,
          not_false_eq_true, true_or, and_true]
      | none =>
          cases comment with
          | some text => simp only [combine, Except.error.injEq, exists_eq', ne_eq, reduceCtorEq,
              not_false_eq_true, or_true, and_true]
          | none => simp only [combine, reduceCtorEq, exists_false, ne_eq, not_true_eq_false,
              or_self, and_false]

/-- No choice gives an empty list. -/
theorem combine_ne_nil {value comment : Option String} {values : List Value} {data : RecordData}
    (h : combine value comment values = .ok data) : data ≠ .multi [] := by
  rintro rfl
  cases values with
  | nil => cases h
  | cons first rest =>
      cases value with
      | some text => cases h
      | none =>
          cases comment with
          | some text => cases h
          | none => cases h

/-- Only whole records are read. -/
theorem isWhole_of_ofJson {json : Json} {record : Record} (h : ofJson json = .ok record) :
    record.IsWhole := by
  rcases bind_eq_ok_iff.mp ((ofJson_eq json).symm.trans h) with ⟨fields, -, hfields⟩
  rw [ofFields] at hfields
  cases hc : combine fields.value.join fields.comment.join (fields.values.getD []) with
  | error fault =>
      rw [hc] at hfields
      cases hfields
  | ok data =>
      rw [hc] at hfields
      cases hfields
      exact combine_ne_nil hc

/-! ### Both forms at once -/

/-- What taking a member of a record does to the fields that give its form. -/
theorem Fields.take_ok {known after : Fields} {name : String} {json : Json}
    (h : known.take name json = .ok after) :
    Taken "value" (asOptional asText) name json known.value after.value
      ∧ Taken "comment" (asOptional asText) name json known.comment after.comment
      ∧ Taken "values" (asList Value.ofJson) name json known.values after.values := by
  unfold Fields.take at h
  split at h
  · rcases map_once_eq_ok_iff.mp h with ⟨-, value, -, rfl⟩
    exact ⟨.other (by decide) rfl, .other (by decide) rfl, .other (by decide) rfl⟩
  · rcases map_once_eq_ok_iff.mp h with ⟨-, value, -, rfl⟩
    exact ⟨.other (by decide) rfl, .other (by decide) rfl, .other (by decide) rfl⟩
  · rcases map_once_eq_ok_iff.mp h with ⟨-, value, -, rfl⟩
    exact ⟨.other (by decide) rfl, .other (by decide) rfl, .other (by decide) rfl⟩
  · rcases map_once_eq_ok_iff.mp h with ⟨-, value, -, rfl⟩
    exact ⟨.other (by decide) rfl, .other (by decide) rfl, .other (by decide) rfl⟩
  · rcases map_once_eq_ok_iff.mp h with ⟨hnone, value, hread, rfl⟩
    exact ⟨.own rfl hnone hread rfl, .other (by decide) rfl, .other (by decide) rfl⟩
  · rcases map_once_eq_ok_iff.mp h with ⟨hnone, comment, hread, rfl⟩
    exact ⟨.other (by decide) rfl, .own rfl hnone hread rfl, .other (by decide) rfl⟩
  · rcases map_once_eq_ok_iff.mp h with ⟨hnone, values, hread, rfl⟩
    exact ⟨.other (by decide) rfl, .other (by decide) rfl, .own rfl hnone hread rfl⟩
  · next hvalue hcomment hvalues =>
      cases h
      exact ⟨.other hvalue rfl, .other hcomment rfl, .other hvalues rfl⟩

/-- A document that gives a list of values, and a value or a comment beside it. -/
structure GivesBoth (entries : List (Literal × Json)) : Prop where
  /-- There is a list that is not empty. -/
  values : ∃ items, (some "values", .array items) ∈ entries ∧ items ≠ []
  /-- There is a value or a comment that is not null. -/
  beside : ∃ name ∈ ["value", "comment"], ∃ json, (some name, json) ∈ entries ∧ json ≠ .null

theorem ne_none_iff_of_asOptional {json : Json} {value : Option String}
    (h : asOptional asText json = .ok value) : value ≠ none ↔ json ≠ .null := by
  cases json with
  | null =>
      cases h
      exact iff_of_false (fun hn => hn rfl) fun hn => hn rfl
  | string literal =>
      cases literal with
      | none => cases h
      | some text =>
          cases h
          exact iff_of_true nofun nofun
  | bool b => cases h
  | number n => cases h
  | array items => cases h
  | object entries => cases h
  | cut => cases h

/-- A field that may be null is given by a member that is not null. -/
theorem join_ne_none_iff {entries : List (Literal × Json)} {field : String}
    {found : Option (Option String)}
    (hread : ∀ json, (some field, json) ∈ entries → ∃ value, asOptional asText json = .ok value)
    (hfound : ∀ value, found = some value
      ↔ none = some value ∨ ∃ json, (some field, json) ∈ entries
        ∧ asOptional asText json = .ok value) :
    found.join ≠ none ↔ ∃ json, (some field, json) ∈ entries ∧ json ≠ .null := by
  constructor
  · intro h
    cases hf : found with
    | none => exact absurd (by rw [hf]; rfl) h
    | some value =>
        rcases ((hfound value).mp hf).resolve_left nofun with ⟨json, hm, hj⟩
        rw [hf, Option.join_some] at h
        exact ⟨json, hm, (ne_none_iff_of_asOptional hj).mp h⟩
  · rintro ⟨json, hm, hnull⟩
    rcases hread json hm with ⟨value, hv⟩
    rw [(hfound value).mpr (Or.inr ⟨json, hm, hv⟩), Option.join_some]
    exact (ne_none_iff_of_asOptional hv).mpr hnull

theorem exists_items_of_asList {json : Json} {values : List Value}
    (h : asList Value.ofJson json = .ok values) :
    ∃ items, json = .array items ∧ (values ≠ [] ↔ items ≠ []) := by
  cases json with
  | array items =>
      refine ⟨items, rfl, ?_⟩
      cases items with
      | nil =>
          cases h
          exact iff_of_false (fun hn => hn rfl) fun hn => hn rfl
      | cons first rest =>
          rw [asList, readItems] at h
          cases hf : Value.ofJson first with
          | error error =>
              rw [hf] at h
              cases h
          | ok value =>
              rw [hf] at h
              cases hr : readItems Value.ofJson rest with
              | error error =>
                  rw [hr] at h
                  cases h
              | ok others =>
                  rw [hr] at h
                  cases h
                  exact iff_of_true (List.cons_ne_nil _ _) (List.cons_ne_nil _ _)
  | null => cases h
  | bool b => cases h
  | number n => cases h
  | string literal => cases h
  | object entries => cases h
  | cut => cases h

/-- A list is given by a member that is an array with items. -/
theorem getD_ne_nil_iff {entries : List (Literal × Json)} {found : Option (List Value)}
    (hread : ∀ json, (some "values", json) ∈ entries →
      ∃ values, asList Value.ofJson json = .ok values)
    (hfound : ∀ values, found = some values
      ↔ none = some values ∨ ∃ json, (some "values", json) ∈ entries
        ∧ asList Value.ofJson json = .ok values) :
    found.getD [] ≠ [] ↔ ∃ items, (some "values", .array items) ∈ entries ∧ items ≠ [] := by
  constructor
  · intro h
    cases hf : found with
    | none => exact absurd (by rw [hf]; rfl) h
    | some values =>
        rcases ((hfound values).mp hf).resolve_left nofun with ⟨json, hm, hj⟩
        rcases exists_items_of_asList hj with ⟨items, rfl, hitems⟩
        rw [hf, Option.getD_some] at h
        exact ⟨items, hm, hitems.mp h⟩
  · rintro ⟨items, hm, hne⟩
    rcases hread _ hm with ⟨values, hv⟩
    rcases exists_items_of_asList hv with ⟨_, he, hitems⟩
    cases he
    rw [(hfound values).mpr (Or.inr ⟨_, hm, hv⟩), Option.getD_some]
    exact hitems.mpr hne

/-- The fields that were read from some members have no form exactly if the members give both. -/
theorem exists_error_iff_givesBoth {entries : List (Literal × Json)} {fields : Fields}
    (h : readMembers Fields.take {} entries = .ok fields) :
    (∃ fault, combine fields.value.join fields.comment.join (fields.values.getD [])
      = .error fault) ↔ GivesBoth entries := by
  rcases get_of_readMembers (fun _ _ _ _ ht => (Fields.take_ok ht).1) h with ⟨hread, hfound⟩
  have hvalue := join_ne_none_iff hread hfound
  rcases get_of_readMembers (fun _ _ _ _ ht => (Fields.take_ok ht).2.1) h with ⟨hread, hfound⟩
  have hcomment := join_ne_none_iff hread hfound
  rcases get_of_readMembers (fun _ _ _ _ ht => (Fields.take_ok ht).2.2) h with ⟨hread, hfound⟩
  have hvalues := getD_ne_nil_iff hread hfound
  rw [combine_eq_error_iff, hvalue, hcomment, hvalues]
  constructor
  · rintro ⟨hlist, hbeside | hbeside⟩
    · exact ⟨hlist, "value", List.mem_cons_self, hbeside⟩
    · exact ⟨hlist, "comment", List.mem_cons_of_mem _ List.mem_cons_self, hbeside⟩
  · rintro ⟨hlist, name, hname, hbeside⟩
    simp only [List.mem_cons, List.not_mem_nil, or_false] at hname
    rcases hname with rfl | rfl
    · exact ⟨hlist, Or.inl hbeside⟩
    · exact ⟨hlist, Or.inr hbeside⟩

/-- A document whose members are each in order is rejected exactly if it gives both a list and
    something beside it, and then for that reason. -/
theorem ofJson_of_wellFormed {json : Json} {entries : List (Literal × Json)} {fields : Fields}
    (hm : members fieldNames json = .ok entries)
    (hr : readMembers Fields.take {} entries = .ok fields) :
    (ofJson json = .error .conflict ↔ GivesBoth entries)
      ∧ ((∃ record, ofJson json = .ok record) ↔ ¬GivesBoth entries) := by
  have hfields : ofJson json = ofFields fields := by
    rw [ofJson_eq, readFields, hm, Except.bind, hr, Except.bind]
  rw [hfields, ofFields, ← exists_error_iff_givesBoth hr]
  cases combine fields.value.join fields.comment.join (fields.values.getD []) with
  | error fault => simp only [Except.error.injEq, exists_eq', reduceCtorEq, exists_false,
      not_true_eq_false, and_self]
  | ok data => simp only [reduceCtorEq, exists_false, Except.ok.injEq, exists_eq',
      not_false_eq_true, and_self]

end Record

/-! ### Zones -/

/-- No record of a zone holds an empty list. -/
def Zone.IsWhole (zone : Zone) : Prop :=
  ∀ identifier record, zone.records.get? identifier = some record → record.IsWhole

/-- No record of any zone holds an empty list. -/
def Zones.IsWhole (zones : Zones) : Prop :=
  ∀ name zone, Table.get? zones name = some zone → zone.IsWhole

namespace Zone

theorem toJson_eq (zone : Zone) :
    zone.toJson = .object (optionalMember "config" Config.toJson zone.config
      ++ (some "resource_records", zone.records.toJson Record.toJson)
      :: optionalMember "ttl" TtlDirective.toJson zone.ttl) := by
  rcases zone with ⟨_ | config, records, _ | ttl⟩
  · rfl
  · rfl
  · rfl
  · rfl

/-- A whole zone is read back. -/
theorem ofJson_toJson {zone : Zone} (h : zone.IsWhole) : ofJson zone.toJson = .ok zone := by
  rcases zone with ⟨config, records, ttl⟩
  have hconfig : readMembers Fields.take {} (optionalMember "config" Config.toJson config)
      = .ok ⟨config.map some, none, none⟩ :=
    readMembers_optionalMember (fun x => Fields.mk x none none)
      (fun _ => rfl) _
  have hrecords : asTable Record.ofJson (records.toJson Record.toJson) = .ok records :=
    asTable_toJson fun identifier record hr => Record.ofJson_toJson (h identifier record hr)
  have httl : ∀ x, readMembers Fields.take ⟨x, some records, none⟩
      (optionalMember "ttl" TtlDirective.toJson ttl) = .ok ⟨x, some records, ttl.map some⟩ :=
    fun x => readMembers_optionalMember (fun y => Fields.mk x (some records) y)
      (fun ttl => map_once_eq_ok_iff.mpr
        ⟨rfl, some ttl, congrArg (Except.map some) ttl.ofJson_toJson, rfl⟩) _
  rw [toJson_eq, ofJson]
  simp only [members, bind, Except.bind]
  rw [readMembers_append, hconfig, Except.bind]
  simp only [readMembers, Fields.take, once, hrecords, Except.map, httl, join_map_some]
  rfl

/-- What has been read of a zone's records is whole. -/
theorem Fields.take_isWhole {known after : Fields} {name : String} {json : Json}
    (hknown : Zone.IsWhole { records := known.records.getD Table.empty })
    (h : known.take name json = .ok after) :
    Zone.IsWhole { records := after.records.getD Table.empty } := by
  unfold Fields.take at h
  split at h
  · rcases map_once_eq_ok_iff.mp h with ⟨-, config, -, rfl⟩
    exact hknown
  · rcases map_once_eq_ok_iff.mp h with ⟨-, records, hread, rfl⟩
    exact forall_of_asTable (fun _ _ hr => Record.isWhole_of_ofJson hr) hread
  · rcases map_once_eq_ok_iff.mp h with ⟨-, ttl, -, rfl⟩
    exact hknown
  · cases h
    exact hknown

/-- Only whole zones are read. -/
theorem isWhole_of_ofJson {json : Json} {zone : Zone} (h : ofJson json = .ok zone) :
    zone.IsWhole := by
  rcases bind_eq_ok_iff.mp h with ⟨entries, -, hrest⟩
  rcases bind_eq_ok_iff.mp hrest with ⟨fields, hr, hfields⟩
  cases hfields
  have hempty : IsWhole {} := fun _ _ hget => nomatch hget
  exact readMembers_invariant
    (P := fun fields => Zone.IsWhole { records := fields.records.getD Table.empty })
    (fun _ _ _ _ => Fields.take_isWhole) hempty hr

end Zone

namespace Zones

/-- Whole zones are read back. -/
theorem ofJson_toJson {zones : Zones} (h : zones.IsWhole) : ofJson (toJson zones) = .ok zones :=
  asTable_toJson fun name zone hz => Zone.ofJson_toJson (h name zone hz)

/-- Only whole zones are read. -/
theorem isWhole_of_ofJson {json : Json} {zones : Zones} (h : ofJson json = .ok zones) :
    zones.IsWhole :=
  forall_of_asTable (fun _ _ hz => Zone.isWhole_of_ofJson hz) h

end Zones

end DnsZones
