import DnsZones.Proofs.Table
import DnsZones.Zone

/-!
# Laws of Zones

Which records of a zone have a type.

The records of one type are the entries of a filtered table, so what is listed is
what the table of all records holds, and a table that holds one thing lists it.

## Theorems

* `Zone.mem_recordsOf_iff`: What is listed.
* `Zone.recordsOf_eq_singleton`: When one record is.
* `Zone.recordsOf_insert_of_ne`, `Zone.recordsOf_insert_of_singleton`: When a record takes
  the place of another.
-/

namespace DnsZones

namespace Zone

variable {zone : Zone} {type : RecordType} {identifier : String} {record : Record}

theorem mem_recordsOf_iff :
    (identifier, record) ∈ zone.recordsOf type
      ↔ zone.records.get? identifier = some record ∧ record.type = type := by
  rw [recordsOf, List.mem_filter, beq_iff_eq, Table.get?_eq_some_iff]

/-- The only record of its type is the only one that is listed. -/
theorem recordsOf_eq_singleton (h : zone.records.get? identifier = some record)
    (htype : record.type = type)
    (honly : ∀ other found, zone.records.get? other = some found → found.type = type →
      other = identifier) :
    zone.recordsOf type = [(identifier, record)] := by
  have hfilter : zone.records.filter (fun _ r => r.type == type)
      = Table.empty.insert identifier record := by
    refine Table.ext_get? fun other => ?_
    rw [Table.get?_filter]
    by_cases ho : other = identifier
    · subst ho
      rw [h, Table.get?_insert_self, Option.filter_some, if_pos (beq_iff_eq.mpr htype)]
    · rw [Table.get?_insert_of_ne _ _ ho, Table.get?_empty, Option.filter_eq_none_iff]
      exact fun found hf ht => ho (honly other found hf (beq_iff_eq.mp ht))
  exact congrArg Table.entries hfilter

/-- A record of another type takes the place of one without being listed. -/
theorem recordsOf_insert_of_ne {old : Record} (h : zone.records.get? identifier = some old)
    (hold : old.type ≠ type) (hnew : record.type ≠ type) :
    (zone.insert identifier record).recordsOf type = zone.recordsOf type := by
  have hne : ∀ {found : Record}, found.type ≠ type → ¬(found.type == type) = true :=
    fun hf he => hf (beq_iff_eq.mp he)
  have hfilter : (zone.records.insert identifier record).filter (fun _ r => r.type == type)
      = zone.records.filter (fun _ r => r.type == type) := by
    refine Table.ext_get? fun other => ?_
    rw [Table.get?_filter, Table.get?_filter]
    by_cases ho : other = identifier
    · subst ho
      rw [Table.get?_insert_self, h, Option.filter_some, Option.filter_some, if_neg (hne hnew),
        if_neg (hne hold)]
    · rw [Table.get?_insert_of_ne _ _ ho]
  exact congrArg Table.entries hfilter

/-- A record of the same type takes the place of the only one. -/
theorem recordsOf_insert_of_singleton {old : Record}
    (h : zone.recordsOf type = [(identifier, old)]) (hnew : record.type = type) :
    (zone.insert identifier record).recordsOf type = [(identifier, record)] := by
  refine recordsOf_eq_singleton (Table.get?_insert_self _ _ _) hnew fun other found hf htype => ?_
  by_cases ho : other = identifier
  · exact ho
  · have hf : zone.records.get? other = some found :=
      (Table.get?_insert_of_ne _ _ ho).symm.trans hf
    have hm := mem_recordsOf_iff.mpr ⟨hf, htype⟩
    rw [h, List.mem_singleton] at hm
    exact congrArg Prod.fst hm

end Zone

end DnsZones
