import DnsZones.Proofs.Json.Shape
import DnsZones.Proofs.Json.Text
import DnsZones.Serial

/-!
# The Document of an Index

An index that was written is read again as the same index.

The counter of a zone lives in a file between two calls, so what one call leaves
there has to mean the same to the next. The text is one object with two natural
numbers of 32 bits, which are far below where the reader gives up on a number.

## Theorems

* `SerialIndex.ofJson_toJson`: The value is read as the index.
* `SerialIndex.readText_document`: The text is read as the index.
-/

namespace DnsZones

namespace SerialIndex

open Json

/-- The value that stands for an index is read as the index. -/
theorem ofJson_toJson (index : SerialIndex) : ofJson index.toJson = .ok index := by
  simp only [ofJson, toJson, members, bind, Except.bind, readMembers, Fields.take, once,
    asWord_natural, Except.map, required]
  rfl

/-- The text of an index is read as the index. -/
theorem readText_document (index : SerialIndex) : readText ofJson index.document = .ok index := by
  have hwritten : index.toJson.IsWritten :=
    ((areWritten_nil.cons _ (isWritten_natural _)).cons _ (isWritten_natural _)).object
  have hspaces : ∀ c ∈ ['\n'], isSpace c = true := List.all_eq_true.mp (by decide)
  have hread : Document.read index.document = ⟨index.toJson, true⟩ :=
    read_object hwritten ['\n'] hspaces String.toList_append
  simp only [readText, hread, ofJson_toJson, if_true]

end SerialIndex

end DnsZones
