import DnsZones.Proofs.Mailbox
import DnsZones.Proofs.Reverse.Grouping

/-!
# Laws of Reverse Zones

What is in a reverse zone, and where its pointers lead.

A reverse zone is built by putting pointers where they belong and adding a start
of authority, and merging puts more pointers in. None of this makes up a record:
whatever is in a reverse zone is the start of authority that was copied into it,
or the pointer of some address record of a zone that asks for its reverse zones.

Where a pointer leads is worked out from the text of the record's name. A name
that is fully qualified is taken as it is, and everything else is written in front
of the zone's name. For a relative name that is the absolute name it stands for.
It is a name only as long as it is not too long, and a name of one label with a
dot at its end makes none, since its dot would be followed by another.

## Main definitions

* `Reverse.IsPointable`: A name to which a pointer can lead.
* `Reverse.Contents`: What is in a reverse zone.
* `Derivation.LeadsTo`: A pointer was made for an address record.
* `Derivation.Serves`: Some pointer of a reverse zone was.

## Theorems

* `Reverse.pointerTarget_eq_qualify`: A pointer leads to the absolute name of its record.
* `Reverse.isValid_pointerTarget_iff`: When that is a name.
* `Derivation.contents_ofZones`: What is in the zones that are derived.
-/

namespace DnsZones

namespace Reverse

/-! ### Where a pointer leads -/

section Target

variable {name zone : String}

/-- A name to which a pointer can lead: it is fully qualified, or it is relative and not too long
    as an absolute name. -/
def IsPointable (name zone : String) : Prop :=
  Name.isFullyQualified name = true
    ∨ (Name.isAbsolute name = false ∧ (Name.qualify name zone).utf8ByteSize ≤ Name.maxLength)

instance : Decidable (IsPointable name zone) := inferInstanceAs (Decidable (_ ∨ _))

theorem isFullyQualified_imp (h : Name.isFullyQualified name = true) :
    Name.isValid name = true ∧ Name.isAbsolute name = true := by
  unfold Name.isFullyQualified at h
  rw [Bool.and_eq_true, Bool.and_eq_true] at h
  exact h.1

/-- What is not fully qualified is written in front of the zone's name. -/
theorem toList_pointerTarget (hzone : Name.isValid zone = true)
    (h : Name.isFullyQualified name = false) :
    (pointerTarget name zone).toList
      = name.toList ++ '.' :: Name.withoutFinalDot zone.toList ++ ['.'] := by
  have hlist : (name ++ "." ++ zone).toList = (name.toList ++ ['.']) ++ zone.toList := by
    rw [String.toList_append, String.toList_append]
    rfl
  unfold pointerTarget
  rw [h, if_neg (by decide), Mailbox.toList_withFinalDot, hlist,
    Name.withoutFinalDot_append _ (Name.toList_ne_nil hzone)]
  simp only [List.append_assoc, List.cons_append, List.nil_append]

/-- A relative name is written in front of the zone's name in the same way for both purposes. -/
theorem pointerTarget_of_relative (hzone : Name.isValid zone = true) (hname : name ≠ Name.origin)
    (h : Name.isAbsolute name = false) : pointerTarget name zone = Name.qualify name zone := by
  have hnot : Name.isFullyQualified name = false := by
    refine Bool.eq_false_iff.mpr fun hq => ?_
    rw [(isFullyQualified_imp hq).2] at h
    cases h
  rw [← String.toList_inj, toList_pointerTarget hzone hnot, Name.qualify_of_relative hzone hname h]

/-- A pointer leads to the absolute name of its record, if a pointer can lead there. -/
theorem pointerTarget_eq_qualify (hzone : Name.isValid zone = true) (hname : name ≠ Name.origin)
    (h : IsPointable name zone) : pointerTarget name zone = Name.qualify name zone := by
  rcases h with hq | ⟨hrelative, -⟩
  · rw [pointerTarget, if_pos hq, Name.qualify_of_isAbsolute hname (isFullyQualified_imp hq).2]
  · exact pointerTarget_of_relative hzone hname hrelative

/-- Where the pointer to a valid name leads is a valid name exactly if a pointer can lead there. -/
theorem isValid_pointerTarget_iff (hzone : Name.isValid zone = true)
    (hname : Name.isValid name = true) :
    Name.isValid (pointerTarget name zone) = true ↔ IsPointable name zone := by
  unfold IsPointable
  cases hq : Name.isFullyQualified name with
  | true =>
      have htarget : pointerTarget name zone = name := if_pos hq
      rw [htarget, hname]
      exact iff_of_true rfl (Or.inl rfl)
  | false =>
      rw [Name.isValid_below_iff hzone hname (toList_pointerTarget hzone hq)]
      simp only [Bool.false_eq_true, false_or]
      refine and_congr_right fun hrelative => ?_
      rw [pointerTarget_of_relative hzone (Name.ne_origin_of_isValid hname) hrelative]

end Target

/-! ### Contents -/

/-- What is in a reverse zone: under one identifier a start of authority that was copied from a
    zone, with that zone's configuration, and pointers under the others. -/
structure Contents (origin : Zone) (name identifier : String) (authority : Record)
    (IsPointer : String → Record → Prop) (reverse : Zone) : Prop where
  named : ∃ address : IPv4, address.reverseZone = name
  config : reverse.config = origin.config
  copied : (identifier, authority) ∈ origin.recordsOf .soa
  present : reverse.records.get? identifier = some { authority with name := name }
  records : ∀ other record, reverse.records.get? other = some record →
    (other = identifier ∧ record = { authority with name := name }) ∨ IsPointer other record

/-- What is in the reverse zones of one zone. -/
theorem contents_deriveAll {source name : String} {origin reverse : Zone} {zones : Zones}
    (h : deriveAll source origin = .ok zones) (hr : zones.get? name = some reverse) :
    ∃ identifier authority, Contents origin name identifier authority
      (fun other record => ∃ address, (other, address) ∈ origin.recordsOf .a
        ∧ pointer source other address = .ok ⟨name, other, record⟩) reverse := by
  have hgrouped := isGrouped_of_deriveAll h
  have hreverse := hgrouped.zones name reverse hr
  rcases (hgrouped.names name).mp (Table.contains_iff.mpr ⟨reverse, hr⟩)
    with ⟨_, _, address, -, hnamed⟩
  rcases hreverse.authority with ⟨identifier, authority, hfirst, hpresent⟩
  refine ⟨identifier, authority, ⟨address, hnamed⟩, hreverse.config,
    Zone.mem_recordsOf_iff.mpr ⟨hfirst.present, hfirst.type⟩, hpresent, fun other record hget => ?_⟩
  rcases (hreverse.records other record).mp hget with
    ⟨found, hfound, rfl⟩ | ⟨original, address, ha, rfl, rfl⟩
  · rcases hfirst.unique hfound with ⟨rfl, rfl⟩
    exact Or.inl ⟨rfl, rfl⟩
  · exact Or.inr ⟨original, Zone.mem_recordsOf_iff.mpr ⟨ha.present, ha.type⟩,
      pointer_eq_ok_iff.mpr ⟨address, ha.value, rfl⟩⟩

end Reverse

namespace Derivation

/-- A pointer of a reverse zone was made for an address record, under the same identifier, of a
    zone that asks for its reverse zones. -/
structure LeadsTo (given : Zones) (name identifier : String) (record : Record) (source : String)
    (address : Record) : Prop where
  given : ∃ zone, given.get? source = some zone ∧ isWanted zone = true
    ∧ (identifier, address) ∈ zone.recordsOf .a
  made : Reverse.pointer source identifier address = .ok ⟨name, identifier, record⟩

/-- The address records that the pointers of a reverse zone were made for, with the names of the
    zones that they are in. -/
def Serves (given : Zones) (name : String) (reverse : Zone) (source : String) (address : Record) :
    Prop :=
  ∃ identifier record, reverse.records.get? identifier = some record
    ∧ LeadsTo given name identifier record source address

variable {given : Zones} {name : String} {zone : Zone}

/-- A pointer has the target and an octet of its address, and nothing that could be left out. -/
theorem LeadsTo.exists_octet {identifier source : String} {record address : Record}
    (h : LeadsTo given name identifier record source address) :
    ∃ octet : UInt8, record
      = { Record.ofValue .ptr ⟨Reverse.pointerTarget address.name source, none⟩ with
          name := Numeral.decimal octet.toNat } := by
  rcases Reverse.pointer_eq_ok_iff.mp h.made with ⟨found, -, hmade⟩
  exact ⟨found.fourth, congrArg Reverse.Pointer.record hmade⟩

/-- What is in the zones that are derived: one start of authority, copied from a given zone, and
    pointers to address records of given zones. -/
theorem contents_ofZones (h : (ofZones given).zones.get? name = some zone) :
    ∃ source origin identifier authority, given.get? source = some origin
      ∧ Reverse.Contents origin name identifier authority
        (fun other record => ∃ source address, LeadsTo given name other record source address)
        zone := by
  refine ofZones_induction (motive := fun name zone =>
    ∃ source origin identifier authority, given.get? source = some origin
      ∧ Reverse.Contents origin name identifier authority
        (fun other record => ∃ source address, LeadsTo given name other record source address)
        zone) ?_ ?_ h
  · intro source origin name reverse hsource hyield
    rcases mem_yields_iff.mp hyield with ⟨hwanted, zones, hderive, hreverse⟩
    rcases Reverse.contents_deriveAll (Reverse.derive_eq_ok_iff.mp hderive) hreverse
      with ⟨identifier, authority, hcontents⟩
    refine ⟨source, origin, identifier, authority, hsource, hcontents.named, hcontents.config,
      hcontents.copied, hcontents.present, fun other record hr => ?_⟩
    rcases hcontents.records other record hr with hsoa | ⟨address, ha, hmade⟩
    · exact Or.inl hsoa
    · exact Or.inr ⟨source, address, ⟨origin, hsource, hwanted, ha⟩, hmade⟩
  · rintro name existing other ⟨source, origin, identifier, authority, hsource, hcontents⟩
      ⟨_, _, _, copied, -, hother⟩
    refine ⟨source, origin, identifier, authority, hsource, ?_⟩
    refine merge_induction hcontents ?_
    intro merged key record hmerged hm htype hfree
    -- What is merged in is no start of authority, so it is a pointer.
    have hpointer : ∃ source address, LeadsTo given name key record source address := by
      rcases hother.records key record (Table.get?_eq_some_iff.mpr hm) with ⟨-, rfl⟩ | hp
      · exact absurd (Zone.mem_recordsOf_iff.mp hother.copied).2 htype
      · exact hp
    have hne : identifier ≠ key := fun he => by
      rw [← he, hmerged.present] at hfree
      cases hfree
    refine ⟨hmerged.named, hmerged.config, hmerged.copied, ?_, ?_⟩
    · exact (Table.get?_insert_of_ne _ _ hne).trans hmerged.present
    · exact Table.forall_insert hmerged.records (Or.inr hpointer)

end Derivation

end DnsZones
