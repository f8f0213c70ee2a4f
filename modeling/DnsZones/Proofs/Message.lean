import DnsZones.Message
import DnsZones.Proofs.Definition

/-!
# Messages There and Back

Nothing is lost in what host and plugin say to one another.

A message is read only after the whole of it has been looked through, and no
deeper than a fixed number of levels. What is written never comes near that
limit: the deepest message holds a zone, whose values are five levels down. The
tag is the first member of a message that is written, and none of the others has
its name, so it is found and taken away again, and the members that are left are
those of the one kind that the tag stands for.

## Main definitions

* `Request.IsWhole`, `Response.IsWhole`: No record in a message holds an empty list.

## Theorems

* `Message.tagged_object`: The tag of a message that is written.
* `Request.ofJson_toJson`, `Response.ofJson_toJson`: A message is read back.
* `Request.isWhole_of_ofJson`, `Response.isWhole_of_ofJson`: A message that was read is whole.
* `Message.isLossless`: Definitions and messages are written and read without loss, and only
  a record in two forms at once is rejected for that.
-/

namespace DnsZones

open Json

/-! ### Depth -/

namespace Json

/-- The members of an object are one level below it. -/
theorem isPlain_object (depth : Nat) (members : List (Literal × Json)) :
    (object members).isPlain (depth + 1) = membersArePlain depth members := rfl

theorem membersArePlain_append {depth : Nat} {xs ys : List (Literal × Json)}
    (hx : membersArePlain depth xs = true) (hy : membersArePlain depth ys = true) :
    membersArePlain depth (xs ++ ys) = true := by
  rw [membersArePlain_iff] at hx hy ⊢
  intro e he
  rcases List.mem_append.mp he with he | he
  · exact hx e he
  · exact hy e he

theorem membersArePlain_optionalMember {α : Type} {depth : Nat} {write : α → Json}
    (h : ∀ value, (write value).isPlain depth = true) (name : String) (x : Option α) :
    membersArePlain depth (optionalMember name write x) = true := by
  cases x with
  | none => rfl
  | some value =>
      rw [optionalMember, membersArePlain, h]
      rfl

end Json

theorem Value.isPlain_toJson (depth : Nat) (value : Value) :
    value.toJson.isPlain (depth + 1) = true := by
  rw [toJson, optionalText_eq, isPlain_object, membersArePlain,
    membersArePlain_optionalMember fun _ => rfl]
  rfl

theorem Record.isPlain_toJson (depth : Nat) (record : Record) :
    record.toJson.isPlain (depth + 3) = true := by
  have hdata : membersArePlain (depth + 2) (dataMembers record.data) = true := by
    cases record.data with
    | single value =>
        rw [dataMembers, optionalText_eq, membersArePlain,
          membersArePlain_optionalMember fun _ => rfl]
        rfl
    | multi values =>
        cases values with
        | nil => rfl
        | cons first rest =>
            have hvalues : arePlain (depth + 1) ((first :: rest).map Value.toJson) = true := by
              rw [arePlain_iff]
              intro item hm
              rcases List.mem_map.mp hm with ⟨value, -, rfl⟩
              exact value.isPlain_toJson depth
            simp only [dataMembers, membersArePlain, isPlain, hvalues]
            rfl
  rw [toJson, optionalText_eq, optionalWord_eq, isPlain_object, membersArePlain, membersArePlain,
    membersArePlain_append
      (membersArePlain_append (membersArePlain_optionalMember (fun _ => rfl) _ _)
        (membersArePlain_optionalMember (fun _ => rfl) _ _)) hdata]
  rfl

theorem Config.isPlain_toJson (depth : Nat) (config : Config) :
    config.toJson.isPlain (depth + 1) = true := rfl

theorem TtlDirective.isPlain_toJson (depth : Nat) (ttl : TtlDirective) :
    ttl.toJson.isPlain (depth + 1) = true := by
  rcases ttl with ⟨_ | n, _ | comment⟩
  · rfl
  · rfl
  · rfl
  · rfl

theorem Zone.isPlain_toJson (depth : Nat) (zone : Zone) :
    zone.toJson.isPlain (depth + 5) = true := by
  have hrecords : (zone.records.toJson Record.toJson).isPlain (depth + 4) = true := by
    rw [Table.toJson, isPlain_object, membersArePlain_iff]
    intro e he
    rcases List.mem_map.mp he with ⟨entry, -, rfl⟩
    exact ⟨rfl, entry.2.isPlain_toJson depth⟩
  rw [toJson_eq, isPlain_object]
  refine membersArePlain_append
    (membersArePlain_optionalMember (fun config => config.isPlain_toJson _) _ _) ?_
  rw [membersArePlain, hrecords,
    membersArePlain_optionalMember (fun ttl => ttl.isPlain_toJson _)]
  rfl

/-! ### Tags -/

namespace Message

variable {α : Type} {read : Json → Reading α}

theorem splitTag_of_not_mem {tag : String} {entries : List (Literal × Json)}
    (h : some tag ∉ entries.map (·.1)) : splitTag tag entries = .ok (none, entries) := by
  induction entries with
  | nil => rfl
  | cons first rest ih =>
      rw [List.map_cons, List.mem_cons, not_or] at h
      rw [splitTag, ih h.2]
      exact if_neg (Ne.symm h.1)

/-- The tag that a message begins with is found, if no other member has its name. -/
theorem tagged_object {tag : String} (kind : String) {body : List (Literal × Json)}
    (hbody : some tag ∉ body.map (·.1)) (hplain : membersArePlain 126 body = true) :
    tagged tag (.object ((some tag, .text kind) :: body)) = .ok (kind, .object body) := by
  have hmessage : (Json.object ((some tag, .text kind) :: body)).isPlain maxDepth = true := by
    rw [maxDepth, isPlain_object, membersArePlain, hplain]
    rfl
  rw [tagged, if_pos hmessage]
  simp only [splitTag, splitTag_of_not_mem hbody, if_true]
  rfl

/-- The body of a message with one field is read back. -/
theorem asField_object {name : String} {json : Json} {value : α} (h : read json = .ok value) :
    asField name read (.object [(some name, json)]) = .ok value := by
  simp only [asField, members, bind, Except.bind, readMembers, if_true, once, h, Except.map]
  rfl

/-- The field of a message that has one has been read. -/
theorem exists_read_of_asField {name : String} {json : Json} {value : α}
    (h : asField name read json = .ok value) : ∃ json, read json = .ok value := by
  rcases bind_eq_ok_iff.mp h with ⟨entries, -, hrest⟩
  rcases bind_eq_ok_iff.mp hrest with ⟨found, hr, hfound⟩
  have hnone : ∀ value ∈ (none : Option α), ∃ json, read json = .ok value := nofun
  refine readMembers_invariant (P := fun known => ∀ value ∈ known, ∃ json, read json = .ok value)
    (fun known field json after hknown ht => ?_) hnone hr value (required_eq_ok_iff.mp hfound)
  split at ht
  · rcases once_eq_ok_iff.mp ht with ⟨-, other, hread, rfl⟩
    intro found hf
    cases hf
    exact ⟨json, hread⟩
  · cases ht
    exact hknown

end Message

/-! ### Requests -/

namespace Request

/-- No record in a request holds an empty list. -/
def IsWhole : Request → Prop
  | .version | .types | .configure _ => True
  | .normalize _ _ record => record.IsWhole
  | .validateZone _ zone => zone.IsWhole
  | .render _ record => record.IsWhole

/-- The tag of a written request is found. -/
theorem tagged_toJson (request : Request) :
    Message.tagged "method" request.toJson = .ok (request.method, .object request.body) := by
  have hnames : some "method" ∉ request.body.map (·.1) := by
    cases request with
    | version => exact List.not_mem_nil
    | types => exact List.not_mem_nil
    | configure config => exact (by decide : some "method" ∉ [some "config"])
    | normalize zone identifier record =>
        exact (by decide : some "method" ∉ [some "zone", some "identifier", some "record"])
    | validateZone name zone => exact (by decide : some "method" ∉ [some "name", some "zone"])
    | render identifier record =>
        exact (by decide : some "method" ∉ [some "identifier", some "record"])
  refine Message.tagged_object request.method hnames ?_
  cases request with
  | version => rfl
  | types => rfl
  | configure config => rfl
  | normalize zone identifier record =>
      rw [body, membersArePlain, membersArePlain, membersArePlain, record.isPlain_toJson 123]
      rfl
  | validateZone name zone =>
      rw [body, membersArePlain, membersArePlain, zone.isPlain_toJson 121]
      rfl
  | render identifier record =>
      rw [body, membersArePlain, membersArePlain, record.isPlain_toJson 123]
      rfl

/-- A whole request is read back. -/
theorem ofJson_toJson {request : Request} (h : request.IsWhole) :
    ofJson request.toJson = .ok request := by
  simp only [ofJson, tagged_toJson, bind, Except.bind]
  cases request with
  | version => rfl
  | types => rfl
  | configure config =>
      exact map_eq_ok_iff.mpr ⟨config, Message.asField_object config.ofJson_toJson, rfl⟩
  | normalize zone identifier record =>
      have hrecord : Record.ofJson record.toJson = .ok record := Record.ofJson_toJson h
      simp only [method, body, normalizeOfJson, members, bind, Except.bind, readMembers,
        RecordFields.take, once, hrecord, Except.map, required]
      rfl
  | validateZone name zone =>
      have hzone : Zone.ofJson zone.toJson = .ok zone := Zone.ofJson_toJson h
      simp only [method, body, validateZoneOfJson, members, bind, Except.bind, readMembers,
        ZoneFields.take, once, hzone, Except.map, required]
      rfl
  | render identifier record =>
      have hrecord : Record.ofJson record.toJson = .ok record := Record.ofJson_toJson h
      simp only [method, body, renderOfJson, members, bind, Except.bind, readMembers,
        RecordFields.takeZoneless, RecordFields.take, once, hrecord, Except.map, required]
      rfl

/-- The record of a request is whole as far as it has been read. -/
theorem RecordFields.take_isWhole {known after : RecordFields} {name : String} {json : Json}
    (hknown : ∀ record ∈ known.record, record.IsWhole) (h : known.take name json = .ok after) :
    ∀ record ∈ after.record, record.IsWhole := by
  unfold RecordFields.take at h
  split at h
  · rcases map_once_eq_ok_iff.mp h with ⟨-, zone, -, rfl⟩
    exact hknown
  · rcases map_once_eq_ok_iff.mp h with ⟨-, identifier, -, rfl⟩
    exact hknown
  · rcases map_once_eq_ok_iff.mp h with ⟨-, record, hread, rfl⟩
    intro found hf
    cases hf
    exact Record.isWhole_of_ofJson hread
  · cases h
    exact hknown

theorem ZoneFields.take_isWhole {known after : ZoneFields} {name : String} {json : Json}
    (hknown : ∀ zone ∈ known.zone, zone.IsWhole) (h : known.take name json = .ok after) :
    ∀ zone ∈ after.zone, zone.IsWhole := by
  unfold ZoneFields.take at h
  split at h
  · rcases map_once_eq_ok_iff.mp h with ⟨-, name, -, rfl⟩
    exact hknown
  · rcases map_once_eq_ok_iff.mp h with ⟨-, zone, hread, rfl⟩
    intro found hf
    cases hf
    exact Zone.isWhole_of_ofJson hread
  · cases h
    exact hknown

theorem isWhole_of_normalizeOfJson {json : Json} {request : Request}
    (h : normalizeOfJson json = .ok request) : request.IsWhole := by
  rcases bind_eq_ok_iff.mp h with ⟨entries, -, hrest⟩
  rcases bind_eq_ok_iff.mp hrest with ⟨fields, hr, hfields⟩
  rcases bind_eq_ok_iff.mp hfields with ⟨zone, -, hrest⟩
  rcases bind_eq_ok_iff.mp hrest with ⟨identifier, -, hrest⟩
  rcases bind_eq_ok_iff.mp hrest with ⟨record, hrecord, hrest⟩
  cases hrest
  have hnone : ∀ record ∈ (none : Option Record), record.IsWhole := fun record hm =>
    absurd hm (Option.not_mem_none record)
  exact readMembers_invariant (P := fun known => ∀ record ∈ known.record, record.IsWhole)
    (fun _ _ _ _ => RecordFields.take_isWhole) hnone hr record (required_eq_ok_iff.mp hrecord)

theorem isWhole_of_renderOfJson {json : Json} {request : Request}
    (h : renderOfJson json = .ok request) : request.IsWhole := by
  rcases bind_eq_ok_iff.mp h with ⟨entries, -, hrest⟩
  rcases bind_eq_ok_iff.mp hrest with ⟨fields, hr, hfields⟩
  rcases bind_eq_ok_iff.mp hfields with ⟨identifier, -, hrest⟩
  rcases bind_eq_ok_iff.mp hrest with ⟨record, hrecord, hrest⟩
  cases hrest
  have hnone : ∀ record ∈ (none : Option Record), record.IsWhole := fun record hm =>
    absurd hm (Option.not_mem_none record)
  refine readMembers_invariant (P := fun known => ∀ record ∈ known.record, record.IsWhole)
    (fun known name json after hknown ht => ?_) hnone hr record (required_eq_ok_iff.mp hrecord)
  rw [RecordFields.takeZoneless] at ht
  split at ht
  · cases ht
    exact hknown
  · exact RecordFields.take_isWhole hknown ht

theorem isWhole_of_validateZoneOfJson {json : Json} {request : Request}
    (h : validateZoneOfJson json = .ok request) : request.IsWhole := by
  rcases bind_eq_ok_iff.mp h with ⟨entries, -, hrest⟩
  rcases bind_eq_ok_iff.mp hrest with ⟨fields, hr, hfields⟩
  rcases bind_eq_ok_iff.mp hfields with ⟨name, -, hrest⟩
  rcases bind_eq_ok_iff.mp hrest with ⟨zone, hzone, hrest⟩
  cases hrest
  have hnone : ∀ zone ∈ (none : Option Zone), zone.IsWhole := fun zone hm =>
    absurd hm (Option.not_mem_none zone)
  exact readMembers_invariant (P := fun known => ∀ zone ∈ known.zone, zone.IsWhole)
    (fun _ _ _ _ => ZoneFields.take_isWhole) hnone hr zone (required_eq_ok_iff.mp hzone)

/-- Only whole requests are read. -/
theorem isWhole_of_ofJson {json : Json} {request : Request} (h : ofJson json = .ok request) :
    request.IsWhole := by
  rcases bind_eq_ok_iff.mp h with ⟨⟨tag, body⟩, -, hbody⟩
  dsimp only at hbody
  split at hbody
  · rcases map_eq_ok_iff.mp hbody with ⟨-, -, rfl⟩
    exact trivial
  · rcases map_eq_ok_iff.mp hbody with ⟨-, -, rfl⟩
    exact trivial
  · rcases map_eq_ok_iff.mp hbody with ⟨config, -, rfl⟩
    exact trivial
  · exact isWhole_of_normalizeOfJson hbody
  · exact isWhole_of_validateZoneOfJson hbody
  · exact isWhole_of_renderOfJson hbody
  · cases hbody

end Request

/-! ### Responses -/

namespace Response

/-- The record of a response does not hold an empty list. -/
def IsWhole : Response → Prop
  | .normalized record => record.IsWhole
  | .version _ _ | .types _ | .configured | .validated | .rendered _ | .error _ => True

/-- The tag of a written response is found. -/
theorem tagged_toJson (response : Response) :
    Message.tagged "result" response.toJson = .ok (response.kind, .object response.body) := by
  have hnames : some "result" ∉ response.body.map (·.1) := by
    cases response with
    | version protocol text => exact (by decide : some "result" ∉ [some "protocol", some "version"])
    | types handled => exact (by decide : some "result" ∉ [some "types"])
    | configured => exact List.not_mem_nil
    | normalized record => exact (by decide : some "result" ∉ [some "record"])
    | validated => exact List.not_mem_nil
    | rendered text => exact (by decide : some "result" ∉ [some "text"])
    | error message => exact (by decide : some "result" ∉ [some "message"])
  refine Message.tagged_object response.kind hnames ?_
  cases response with
  | version protocol text => rfl
  | types handled =>
      have hplain : arePlain 125 (handled.map RecordType.toJson) = true := by
        rw [arePlain_iff]
        intro item hm
        rcases List.mem_map.mp hm with ⟨type, -, rfl⟩
        rfl
      rw [body, membersArePlain, isPlain, hplain]
      rfl
  | configured => rfl
  | normalized record =>
      rw [body, membersArePlain, record.isPlain_toJson 123]
      rfl
  | validated => rfl
  | rendered text => rfl
  | error message => rfl

/-- A whole response is read back. -/
theorem ofJson_toJson {response : Response} (h : response.IsWhole) :
    ofJson response.toJson = .ok response := by
  simp only [ofJson, tagged_toJson, bind, Except.bind]
  cases response with
  | version protocol text =>
      simp only [kind, body, versionOfJson, members, bind, Except.bind, readMembers,
        VersionFields.take, once, asWord_natural, Except.map, required]
      rfl
  | types handled =>
      have hlist :
          asList RecordType.ofJson (.array (handled.map RecordType.toJson)) = .ok handled :=
        readItems_map fun type _ => congrArg Except.ok type.ofText_tag
      exact map_eq_ok_iff.mpr ⟨handled, Message.asField_object hlist, rfl⟩
  | configured => rfl
  | normalized record =>
      have hrecord : Record.ofJson record.toJson = .ok record := Record.ofJson_toJson h
      exact map_eq_ok_iff.mpr ⟨record, Message.asField_object hrecord, rfl⟩
  | validated => rfl
  | rendered text => exact map_eq_ok_iff.mpr ⟨text, Message.asField_object rfl, rfl⟩
  | error message => exact map_eq_ok_iff.mpr ⟨message, Message.asField_object rfl, rfl⟩

/-- Only whole responses are read. -/
theorem isWhole_of_ofJson {json : Json} {response : Response} (h : ofJson json = .ok response) :
    response.IsWhole := by
  rcases bind_eq_ok_iff.mp h with ⟨⟨tag, body⟩, -, hbody⟩
  dsimp only at hbody
  split at hbody
  · rcases bind_eq_ok_iff.mp hbody with ⟨entries, -, hrest⟩
    rcases bind_eq_ok_iff.mp hrest with ⟨fields, -, hrest⟩
    rcases bind_eq_ok_iff.mp hrest with ⟨protocol, -, hrest⟩
    rcases bind_eq_ok_iff.mp hrest with ⟨text, -, hrest⟩
    cases hrest
    exact trivial
  · rcases map_eq_ok_iff.mp hbody with ⟨handled, -, rfl⟩
    exact trivial
  · rcases map_eq_ok_iff.mp hbody with ⟨-, -, rfl⟩
    exact trivial
  · rcases map_eq_ok_iff.mp hbody with ⟨record, hrecord, rfl⟩
    rcases Message.exists_read_of_asField hrecord with ⟨found, hread⟩
    exact Record.isWhole_of_ofJson hread
  · rcases map_eq_ok_iff.mp hbody with ⟨-, -, rfl⟩
    exact trivial
  · rcases map_eq_ok_iff.mp hbody with ⟨text, -, rfl⟩
    exact trivial
  · rcases map_eq_ok_iff.mp hbody with ⟨message, -, rfl⟩
    exact trivial
  · cases hbody

end Response

/-! ### Both directions -/

/-- Nothing is lost in definitions and messages. Zones, requests and responses in which no record
    holds an empty list are read back from their documents, nothing else is ever read, and so to
    read and write once more changes nothing. A record's document whose members are each in order
    is rejected for giving two forms exactly if it has a list that is not empty and beside it a
    value or a comment that is not null; otherwise it is read. -/
theorem Message.isLossless :
    IsLossless Zones.toJson Zones.ofJson Zones.IsWhole
      ∧ IsLossless Request.toJson Request.ofJson Request.IsWhole
      ∧ IsLossless Response.toJson Response.ofJson Response.IsWhole
      ∧ ∀ json entries fields, members Record.fieldNames json = .ok entries →
        readMembers Record.Fields.take {} entries = .ok fields →
        (Record.ofJson json = .error .conflict ↔ Record.GivesBoth entries)
          ∧ ((∃ record, Record.ofJson json = .ok record) ↔ ¬Record.GivesBoth entries) :=
  ⟨.of_read_write (fun _ => Zones.ofJson_toJson) fun _ _ => Zones.isWhole_of_ofJson,
    .of_read_write (fun _ => Request.ofJson_toJson) fun _ _ => Request.isWhole_of_ofJson,
    .of_read_write (fun _ => Response.ofJson_toJson) fun _ _ => Response.isWhole_of_ofJson,
    fun _ _ _ => Record.ofJson_of_wellFormed⟩

/-- A list beside a null value is a list, and beside a comment it is rejected. -/
theorem Message.isLossless_values :
    (∃ record, Record.ofJson (.object [(some "value", .null),
        (some "values", .array [.object [(some "value", .text "ns.example.")]])]) = .ok record)
      ∧ Record.ofJson (.object [(some "comment", .text "primary"),
        (some "values", .array [.object [(some "value", .text "ns.example.")]])])
          = .error .conflict := by
  constructor
  · refine (isLossless.2.2.2 _ _ _ rfl rfl).2.mpr ?_
    rintro ⟨-, name, hname, json, hm, hne⟩
    simp only [List.mem_cons, Prod.mk.injEq, Option.some.injEq, List.not_mem_nil, or_false] at hm
    rcases hm with ⟨-, rfl⟩ | ⟨rfl, -⟩
    · exact hne rfl
    · exact absurd hname (by decide)
  · refine (isLossless.2.2.2 _ _ _ rfl rfl).1.mpr ?_
    exact {
      values := ⟨_, .tail _ (.head _), List.cons_ne_nil _ _⟩
      beside := ⟨"comment", .tail _ (.head _), _, .head _, nofun⟩ }

end DnsZones
