import DnsZones.Proofs.Builtin.Records
import DnsZones.Proofs.Layout.Fields

/-!
# Lines That Determine Their Records

The lines that the builtin plugins write for records with one value.

What makes a line readable is that its fields have no blanks and no semicolons in
them. The builtin plugins check exactly the fields before the comment: name and
class by their own rules, and the value as an address or as a name. The comment is
free, but it comes last.

## Main definitions

* `Builtin.IsReturned`: A record with one value, as its plugin returns it.

## Theorems

* `Builtin.hasFields_of_isSound`: The fields of a normalized record are fields.
* `Builtin.line_eq_iff`: Two records have one line exactly if they are alike.
-/

namespace DnsZones

namespace Builtin

variable {record other : Record}

/-- The fields of a normalized record are fields. -/
theorem hasFields_of_isSound (h : RecordIsSound record) : Layout.HasFields record := by
  constructor
  · rcases h.header.name with hname | hname
    · rw [hname]
      decide
    · exact Layout.isField_of_isValid hname
  · have htags : ∀ type ∈ [RecordType.a, .ns, .cname, .ptr, .soa],
        Layout.IsField type.tag.toList := by decide
    exact htags record.type h.type
  · intro text ht
    rcases h.header.classText with hnone | ⟨found, hm, hsome⟩
    · rw [hnone] at ht
      cases ht
    · rw [hsome] at ht
      cases ht
      exact hm

/-- A record of one of the types with one value, as the builtin plugin for its type returns it. -/
def IsReturned (record : Record) : Prop :=
  ∃ (timeout : Duration) (config : Config) (zone identifier : String) (source : Record)
    (plugin : Plugin Host), source.type ∈ [RecordType.a, .ns, .cname, .ptr]
      ∧ (registry timeout).lookup source.type = some plugin
      ∧ Answers (plugin.normalize config zone identifier source) record

/-- Such a record has one value, and that is a field. -/
theorem exists_value_of_isReturned (h : IsReturned record) :
    Layout.HasFields record
      ∧ ∃ value, record.data = .single value ∧ Layout.IsField value.text.toList := by
  rcases h with ⟨timeout, config, zone, identifier, source, plugin, htype, hl, ha⟩
  have hsound := recordIsSound_of_answers hl ha
  refine ⟨hasFields_of_isSound hsound, ?_⟩
  rw [← type_of_answers hl ha] at htype
  simp only [List.mem_cons, List.not_mem_nil, or_false] at htype
  rcases htype with htype | htype
  · rcases hsound.address htype with ⟨value, address, hdata, hvalue⟩
    exact ⟨value, hdata, Layout.isField_of_ofString? hvalue⟩
  · rcases hsound.reference htype with ⟨value, hdata, hvalue⟩
    exact ⟨value, hdata, Layout.isField_of_isValid hvalue⟩

/-- Two records with one value have one line exactly if they have the same name, type, class, time
    to live, value and comment, where an empty class is none. -/
theorem line_eq_iff (h : IsReturned record) (h' : IsReturned other) :
    ∃ value value', record.data = .single value ∧ other.data = .single value'
      ∧ (Layout.single record value = Layout.single other value'
        ↔ record.name = other.name ∧ record.type = other.type
          ∧ Layout.shownClass record = Layout.shownClass other ∧ record.ttl = other.ttl
          ∧ value.text = value'.text ∧ value.comment = value'.comment) := by
  rcases exists_value_of_isReturned h with ⟨hfields, value, hdata, hvalue⟩
  rcases exists_value_of_isReturned h' with ⟨hfields', value', hdata', hvalue'⟩
  refine ⟨value, value', hdata, hdata', ?_⟩
  rw [Layout.single_eq_iff hfields hfields' hvalue hvalue', Value.mk.injEq]

end Builtin

namespace Lookalike

/-- A name server whose name could be a time to live. -/
def record (classText : Option String) (ttl : Option UInt32) (comment : Option String) :
    Record where
  name := "@"
  type := .ns
  classText := classText
  ttl := ttl
  data := .single ⟨"300", comment⟩

theorem isReturned_record {classText : Option String} (ttl : Option UInt32)
    (comment : Option String) (h : Record.checkClass classText = .ok ()) :
    Builtin.IsReturned (record classText ttl comment) := by
  have hname : Name.checkOrOrigin "@" = .ok () := by decide
  have hvalue : Name.check "300" = .ok () := by decide
  have hnormalize : Builtin.normalizeReference Name.origin (record classText ttl comment)
      = .ok (record classText ttl comment) :=
    Builtin.normalizeReference_eq_ok_iff.mpr ⟨rfl, ⟨"300", comment⟩,
      Builtin.checkSingle_eq_ok_iff.mpr ⟨h, hname, rfl⟩, hvalue⟩
  have hlookup : (Builtin.registry Serial.defaultTimeout).lookup .ns
      = some Builtin.nameServer := rfl
  have htype : RecordType.ns ∈ [RecordType.a, .ns, .cname, .ptr] := by decide
  refine ⟨Serial.defaultTimeout, {}, "example.com.", "ns", record classText ttl comment,
    Builtin.nameServer, htype, hlookup, {}, {}, ?_⟩
  simp only [Builtin.nameServer, Plugin.stateless, hnormalize]

/-- An empty class is not seen, but an empty comment is. -/
theorem line_eq_iff_lookalike :
    Layout.single (record (some "") none none) ⟨"300", none⟩
        = Layout.single (record none none none) ⟨"300", none⟩
      ∧ Layout.single (record none none none) ⟨"300", none⟩
        ≠ Layout.single (record none none (some "")) ⟨"300", some ""⟩ := by
  constructor
  · have hempty : Builtin.IsReturned (record (some "") none none) :=
      isReturned_record none none rfl
    have hnone : Builtin.IsReturned (record none none none) := isReturned_record none none rfl
    rcases Builtin.line_eq_iff hempty hnone with ⟨_, _, hdata, hdata', hiff⟩
    cases hdata
    cases hdata'
    exact hiff.mpr ⟨rfl, rfl, rfl, rfl, rfl, rfl⟩
  · have habsent : Builtin.IsReturned (record none none none) := isReturned_record none none rfl
    have hempty : Builtin.IsReturned (record none none (some "")) :=
      isReturned_record none (some "") rfl
    rcases Builtin.line_eq_iff habsent hempty with ⟨_, _, hdata, hdata', hiff⟩
    cases hdata
    cases hdata'
    exact fun h => absurd (hiff.mp h).2.2.2.2.2 (by decide)

end Lookalike

end DnsZones
