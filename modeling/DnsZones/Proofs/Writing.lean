import DnsZones.Proofs.Json.Text
import DnsZones.Proofs.Message

/-!
# Definitions and Messages as Text

What is written as text is read from the text.

That a value is read from its JSON is known of every form that the program writes;
here the text of that JSON is read, whatever texts it holds. All of its numbers are
words of 32 bits, and every literal in it denotes a text. So a whole message is
the same to the host and to a plugin, with nothing between them but its bytes.

## Theorems

* `Zone.isWritten_toJson`, `Request.areWritten`, `Response.areWritten`: Nothing is written
  that cannot be read.
* `Request.readText_write`, `Response.readText_write`: A whole message is read from its text.
-/

namespace DnsZones

open Json

namespace Json

theorem areWritten_optionalMember {α : Type} {write : α → Json}
    (h : ∀ value, (write value).IsWritten) (name : String) (x : Option α) :
    AreWritten (optionalMember name write x) := by
  cases x with
  | none => exact areWritten_nil
  | some value => exact areWritten_nil.cons name (h value)

/-- What is read from the JSON that was written is read from its text. -/
theorem readText_write {α : Type} {read : Json → Reading α} {entries : List (Literal × Json)}
    {value : α} (hwritten : AreWritten entries) (h : read (.object entries) = .ok value) :
    readText read (write (.object entries)) = .ok value := by
  have hread : Document.read (write (.object entries)) = ⟨.object entries, true⟩ :=
    read_object hwritten.object [] nofun (List.append_nil _).symm
  simp only [readText, hread, h, if_true]

end Json

/-! ### Definitions -/

theorem Value.isWritten_toJson (value : Value) : value.toJson.IsWritten := by
  rw [toJson, optionalText_eq]
  exact ((areWritten_optionalMember isWritten_text _ _).cons _ (isWritten_text _)).object

theorem Record.areWritten_dataMembers (data : RecordData) : AreWritten (dataMembers data) := by
  cases data with
  | single value =>
      rw [dataMembers, optionalText_eq]
      exact (areWritten_optionalMember isWritten_text _ _).cons _ (isWritten_text _)
  | multi values =>
      cases values with
      | nil => exact areWritten_nil
      | cons first rest =>
          refine areWritten_nil.cons _ (isWritten_array fun item hm => ?_)
          rcases List.mem_map.mp hm with ⟨value, -, rfl⟩
          exact value.isWritten_toJson

theorem Record.isWritten_toJson (record : Record) : record.toJson.IsWritten := by
  rw [toJson, optionalText_eq, optionalWord_eq]
  exact (((((areWritten_optionalMember isWritten_text _ _).append
    (areWritten_optionalMember isWritten_natural _ _)).append (areWritten_dataMembers _)).cons _
      (isWritten_text _)).cons _ (isWritten_text _)).object

theorem Config.isWritten_toJson (config : Config) : config.toJson.IsWritten :=
  ((((areWritten_nil.cons _ (isWritten_text _)).cons _ (isWritten_text _)).cons _
    (isWritten_bool _)).cons _ (isWritten_bool _)).object

theorem TtlDirective.isWritten_toJson (ttl : TtlDirective) : ttl.toJson.IsWritten := by
  rw [toJson, optionalText_eq]
  refine ((areWritten_optionalMember isWritten_text _ _).cons _ ?_).object
  cases ttl.value with
  | none => exact isWritten_null
  | some n => exact isWritten_natural n

theorem Table.isWritten_toJson {α : Type} {write : α → Json} (h : ∀ value, (write value).IsWritten)
    (table : Table String α) : (table.toJson write).IsWritten := by
  refine AreWritten.object fun e he => ?_
  rcases List.mem_map.mp he with ⟨entry, -, rfl⟩
  exact ⟨rfl, h entry.2⟩

theorem Zone.isWritten_toJson (zone : Zone) : zone.toJson.IsWritten := by
  rw [toJson_eq]
  exact ((areWritten_optionalMember Config.isWritten_toJson _ _).append
    ((areWritten_optionalMember TtlDirective.isWritten_toJson _ _).cons _
      (Table.isWritten_toJson Record.isWritten_toJson _))).object

/-! ### Messages -/

namespace Request

/-- Every member of a request can be read. -/
theorem areWritten (request : Request) :
    AreWritten ((some "method", .text request.method) :: request.body) := by
  refine AreWritten.cons _ (isWritten_text _) ?_
  cases request with
  | version => exact areWritten_nil
  | types => exact areWritten_nil
  | configure config => exact areWritten_nil.cons _ config.isWritten_toJson
  | normalize zone identifier record =>
      exact ((areWritten_nil.cons _ record.isWritten_toJson).cons _ (isWritten_text _)).cons _
        (isWritten_text _)
  | validateZone name zone =>
      exact (areWritten_nil.cons _ zone.isWritten_toJson).cons _ (isWritten_text _)
  | render identifier record =>
      exact (areWritten_nil.cons _ record.isWritten_toJson).cons _ (isWritten_text _)

/-- A whole request is read from its text. -/
theorem readText_write {request : Request} (h : request.IsWhole) :
    readText ofJson request.toJson.write = .ok request :=
  Json.readText_write request.areWritten (ofJson_toJson h)

end Request

namespace Response

/-- Every member of a response can be read. -/
theorem areWritten (response : Response) :
    AreWritten ((some "result", .text response.kind) :: response.body) := by
  refine AreWritten.cons _ (isWritten_text _) ?_
  cases response with
  | version protocol text =>
      exact (areWritten_nil.cons _ (isWritten_text _)).cons _ (isWritten_natural _)
  | types handled =>
      refine areWritten_nil.cons _ (isWritten_array fun item hm => ?_)
      rcases List.mem_map.mp hm with ⟨type, -, rfl⟩
      exact isWritten_text _
  | configured => exact areWritten_nil
  | normalized record => exact areWritten_nil.cons _ record.isWritten_toJson
  | validated => exact areWritten_nil
  | rendered text => exact areWritten_nil.cons _ (isWritten_text _)
  | error message => exact areWritten_nil.cons _ (isWritten_text _)

/-- A whole response is read from its text. -/
theorem readText_write {response : Response} (h : response.IsWhole) :
    readText ofJson response.toJson.write = .ok response :=
  Json.readText_write response.areWritten (ofJson_toJson h)

end Response

end DnsZones
