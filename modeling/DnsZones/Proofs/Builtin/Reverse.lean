import DnsZones.Proofs.Builtin.Columns
import DnsZones.Proofs.Builtin.Settled
import DnsZones.Proofs.Reports
import DnsZones.Proofs.Reverse
import DnsZones.Proofs.Reverse.Merging
import DnsZones.Proofs.Soundness

/-!
# Reverse Zones under the Builtin Plugins

When a reverse zone is rendered, and when it is reported instead.

A reverse zone is derived from zones that were normalized, and then normalized
itself. Its configuration was settled before and settles again. Its start of
authority is a settled one under another name, which is a valid name, so it passes
unchanged. Its pointers have a name of one octet and no class, so they pass
unchanged if what they lead to is a valid name, and are refused otherwise. Nothing
else is in the zone, and the checks of a whole zone find one start of authority
and no canonical name. So the zone comes out as it went in, or one of its pointers
stops it.

This leaves the names of address records. They are valid names, and a pointer
leads to the absolute name of its record unless that has one label, with a dot at
its end, or is too long. The sign for the zone itself is left aside here: it is no
name, and what is made of it is not considered.

It takes zones that keep their serial numbers. One that is to be given out is
given out again for every reverse zone, which may fail. And it takes zones whose
records can be written, for otherwise the run does not come to its end. Then those
of the reverse zones can be written too: pointers have one value, and a start of
authority is as wide as the one that it is a copy of.

## Main definitions

* `Builtin.KeepsSerials`: No serial number is to be given out.
* `Builtin.IsKept`: What is known of a zone that was normalized.

## Theorems

* `Builtin.normalizeZone_contents`: A reverse zone comes out as it went in.
* `Builtin.errors_derivation`: Every zone that asks for its reverse zones has them.
* `Builtin.zoneFits_of_survives`: What is rendered can be written.
* `Builtin.generate_reverse`: Reverse zones are rendered or reported.
* `Hosts.derived_reported`: Reverse zones with errors of their own.
-/

namespace DnsZones

namespace Builtin

variable {timeout : Duration} {defaults : Option Config} {zones : Zones} {host state : Host}
  {name identifier : String} {reverse : Zone}

/-- No serial number is to be given out, under no configuration. -/
structure KeepsSerials (defaults : Option Config) (zones : Zones) : Prop where
  defaults : ∀ config ∈ defaults, config.generateSerial = false
  zones : ∀ name zone, zones.get? name = some zone →
    ∀ config ∈ zone.config, config.generateSerial = false

/-- What is known of a zone that was normalized and whose serial number was kept. -/
structure IsKept (name : String) (zone : Zone) : Prop where
  sound : ZoneIsSound name zone
  config : ∃ config, zone.config = some config ∧ config.generateSerial = false
    ∧ config.serialDirectory.text ≠ ""
  settled : ∀ identifier record, zone.records.get? identifier = some record →
    record.type = .soa → IsSettledAuthority record

/-! ### Zones that were normalized -/

theorem generateSerial_of_absolute {directory : Path} {config settled : Config}
    (h : config.absolute directory = some settled) :
    settled.generateSerial = config.generateSerial := by
  unfold Config.absolute at h
  split at h
  · cases h
  · cases h
    rfl

theorem generateSerial_of_resolveConfig {own : Option Config} {config : Config}
    (hdefaults : ∀ config ∈ defaults, config.generateSerial = false)
    (hown : ∀ config ∈ own, config.generateSerial = false)
    (h : (engine timeout defaults host).resolveConfig own = .ok config) :
    config.generateSerial = false := by
  unfold Engine.resolveConfig at h
  cases hgiven : own.or (engine timeout defaults host).defaults with
  | none =>
      rw [hgiven] at h
      cases h
  | some given =>
      have hserial : given.generateSerial = false := by
        rcases Option.or_eq_some_iff.mp hgiven with ho | ⟨-, hd⟩
        · exact hown given ho
        · exact hdefaults given hd
      cases ha : given.absolute (engine timeout defaults host).workingDirectory with
      | none =>
          simp only [hgiven, ha] at h
          cases h
      | some settled =>
          simp only [hgiven, ha] at h
          cases h
          rw [generateSerial_of_absolute ha, hserial]

theorem isKept_of_normalizeZone {source zone : Zone} {after : Host}
    (hdefaults : ∀ config ∈ defaults, config.generateSerial = false)
    (hown : ∀ config ∈ source.config, config.generateSerial = false)
    (h : (engine timeout defaults host).normalizeZone name source state = (.ok zone, after)) :
    IsKept name zone := by
  rcases Engine.normalizeZone_ok h with ⟨config, hconfig, hzone, hrecords, -⟩
  have hserial := generateSerial_of_resolveConfig hdefaults hown hconfig
  refine ⟨zoneIsSound_of_normalizeZone h,
    ⟨config, hzone, hserial, serialDirectory_of_resolveConfig hconfig⟩, ?_⟩
  intro identifier record hr htype
  rcases hrecords identifier record hr with ⟨origin, plugin, hl, hanswer⟩
  exact isSettledAuthority_of_answers hserial htype hl hanswer

theorem isKept_of_passGiven (hserials : KeepsSerials defaults zones) {zone : Zone}
    (h : ((engine timeout defaults host).passGiven zones host).1.zones.get? name = some zone) :
    IsKept name zone := by
  rcases Engine.passGiven_get?_iff.mp h with ⟨source, hm⟩
  rcases Engine.result_of_mem_answers hm with ⟨before, hb⟩
  have hsource := Engine.get?_of_mem_answers hm
  exact isKept_of_normalizeZone hserials.defaults (hserials.zones name source hsource)
    (Prod.ext hb rfl)

theorem contains_of_passGiven {zone : Zone}
    (h : ((engine timeout defaults host).passGiven zones host).1.zones.get? name = some zone) :
    zones.contains name = true := by
  rcases Engine.passGiven_get?_iff.mp h with ⟨source, hm⟩
  exact Table.contains_iff.mpr ⟨source, Engine.get?_of_mem_answers hm⟩

/-! ### Deriving -/

theorem failure?_of_isKept {zone : Zone} (h : IsKept name zone) :
    Derivation.failure? name zone = none := by
  rcases Reverse.exists_deriveAll_iff.mpr (canBeReversed_of_zoneIsSound h.sound)
    with ⟨found, hfound⟩
  rw [Option.eq_none_iff_forall_not_mem]
  intro error he
  have hderive := (Derivation.failure?_eq_some_iff.mp he).2
  rw [Reverse.derive_eq_ok_iff.mpr hfound] at hderive
  cases hderive

/-- Every zone that asks for its reverse zones has them. -/
theorem errors_derivation (hserials : KeepsSerials defaults zones) :
    ((engine timeout defaults host).derivation zones host).errors = [] := by
  refine List.eq_nil_iff_forall_not_mem.mpr fun error he => ?_
  rcases Derivation.mem_errors_ofZones_iff.mp he with ⟨source, zone, hz, hf⟩
  rw [failure?_of_isKept (isKept_of_passGiven hserials hz)] at hf
  cases hf

/-! ### Normalizing what was derived -/

/-- A settled configuration settles again. -/
theorem exists_resolveConfig {config : Config} (h : config.serialDirectory.text ≠ "") :
    ∃ settled, (engine timeout defaults host).resolveConfig (some config) = .ok settled
      ∧ settled.generateSerial = config.generateSerial := by
  have habsolute : ∃ settled, config.absolute (engine timeout defaults host).workingDirectory
      = some settled := by
    unfold Config.absolute
    rw [if_neg (by rwa [String.isEmpty_iff])]
    exact ⟨_, rfl⟩
  rcases habsolute with ⟨settled, hs⟩
  refine ⟨settled, ?_, generateSerial_of_absolute hs⟩
  simp only [Engine.resolveConfig, Option.some_or, hs]

/-- A zone with one start of authority and without canonical names is accepted. -/
theorem validateEach_plugins {zone : Zone} {authority : Record}
    (hsoa : zone.recordsOf .soa = [(identifier, authority)]) (hcname : zone.recordsOf .cname = []) :
    Engine.validateEach name zone (registry timeout).plugins state = (.ok (), state) := by
  have hreferences : validateReferences name zone = .ok () := by
    unfold validateReferences dangling
    rw [hcname]
    rfl
  have hauthority : validateAuthority name zone = .ok () := by
    unfold validateAuthority
    rw [hsoa]
    rfl
  simp only [validateEach_eq, checkZone, hreferences, hauthority]

section Contents

variable {origin : Zone} {source : String} {authority : Record}
  {IsPointer : String → Record → Prop}

/-- The configuration of a derived zone settles, and has it keep its serial number. -/
theorem exists_resolveConfig_of_contents (horigin : IsKept source origin)
    (h : Reverse.Contents origin name identifier authority IsPointer reverse) :
    ∃ settled, (engine timeout defaults host).resolveConfig reverse.config = .ok settled
      ∧ settled.generateSerial = false := by
  rcases horigin.config with ⟨config, hconfig, hserial, hdirectory⟩
  rw [h.config, hconfig, ← hserial]
  exact exists_resolveConfig hdirectory

/-- The start of authority of a derived zone is left alone: it was settled in the zone that it comes
    from, and a name changes nothing about that. -/
theorem leaves_copied {settled : Config} (horigin : IsKept source origin)
    (h : Reverse.Contents origin name identifier authority IsPointer reverse)
    (hkept : settled.generateSerial = false) :
    (engine timeout defaults host).Leaves settled name
      (identifier, { authority with name := name }) := by
  rcases Zone.mem_recordsOf_iff.mp h.copied with ⟨hauthority, htype⟩
  have hname : Name.isValid name = true := by
    rcases h.named with ⟨address, he⟩
    rw [← he]
    exact Name.isValid_reverseZone address
  have hold := horigin.settled identifier authority hauthority htype
  exact leaves_authority hkept (hold.withName name) (checkOrOrigin_of_isValid hname)

/-- A reverse zone comes out as it went in, if its pointers lead to valid names. -/
theorem normalizeZone_contents (horigin : IsKept source origin)
    (h : Reverse.Contents origin name identifier authority IsPointer reverse)
    (hpointers : ∀ other record, IsPointer other record → record.type = .ptr
      ∧ record.classText = none ∧ Name.isValid record.name = true
      ∧ ∃ value, record.data = .single value)
    (hvalid : ∀ other record value, reverse.records.get? other = some record →
      record.type = .ptr → record.data = .single value → Name.isValid value.text = true) :
    ∃ settled, ∀ state, (engine timeout defaults host).normalizeZone name reverse state
      = (.ok { reverse with config := some settled }, state) := by
  have hresolve : ∃ settled,
      (engine timeout defaults host).resolveConfig reverse.config = .ok settled
        ∧ settled.generateSerial = false := exists_resolveConfig_of_contents horigin h
  rcases hresolve with ⟨settled, hsettled, hkept⟩
  have htype := (Zone.mem_recordsOf_iff.mp h.copied).2
  -- Only pointers stand beside the start of authority, so the checks find nothing else.
  have hsoa : reverse.recordsOf .soa = [(identifier, { authority with name := name })] := by
    refine Zone.recordsOf_eq_singleton h.present htype fun other record hr hother => ?_
    rcases h.records other record hr with ⟨he, -⟩ | hp
    · exact he
    · exact absurd ((hpointers other record hp).1.symm.trans hother) (by decide)
  have hcname : reverse.recordsOf .cname = [] := by
    refine List.eq_nil_iff_forall_not_mem.mpr fun e he => ?_
    rcases Zone.mem_recordsOf_iff.mp he with ⟨hr, hother⟩
    rcases h.records e.1 e.2 hr with ⟨-, hsame⟩ | hp
    · rw [hsame] at hother
      exact absurd (htype.symm.trans hother) (by decide)
    · exact absurd ((hpointers e.1 e.2 hp).1.symm.trans hother) (by decide)
  have hleaves : ∀ e ∈ reverse.records.entries,
      (engine timeout defaults host).Leaves settled name e := by
    rintro ⟨other, record⟩ he
    have hr : reverse.records.get? other = some record := Table.get?_eq_some_iff.mpr he
    rcases h.records other record hr with ⟨rfl, rfl⟩ | hp
    · exact leaves_copied horigin h hkept
    · rcases hpointers other record hp with ⟨hptr, hclass, hnamed, value, hdata⟩
      exact leaves_pointer hptr hclass hnamed hdata (hvalid other record value hr hptr hdata)
  exact ⟨settled, fun state => Engine.normalizeZone_of_leaves hsettled
    (configureEach_plugins timeout settled state) hleaves (validateEach_plugins hsoa hcname)⟩

/-- A reverse zone that comes out can be written if the zone that it is derived from can be. -/
theorem zoneFits_contents (horigin : IsKept source origin)
    (h : Reverse.Contents origin name identifier authority IsPointer reverse)
    (hpointers : ∀ other record, IsPointer other record → record.type = .ptr)
    (hfits : Layout.zoneFits origin = true) {zone : Zone} {after : Host}
    (hn : (engine timeout defaults host).normalizeZone name reverse state = (.ok zone, after)) :
    Layout.zoneFits zone = true := by
  rcases Engine.stages_of_normalizeZone hn with
    ⟨config, _, records, _, hconfig, -, hrecords, -, rfl⟩
  have hkept : config.generateSerial = false := by
    have hresolve : ∃ settled,
        (engine timeout defaults host).resolveConfig reverse.config = .ok settled
          ∧ settled.generateSerial = false := exists_resolveConfig_of_contents horigin h
    rcases hresolve with ⟨settled, hsettled, hkept⟩
    cases hconfig.symm.trans hsettled
    exact hkept
  have hcopied := (Zone.mem_recordsOf_iff.mp h.copied).1
  refine List.all_eq_true.mpr fun e he => ?_
  rcases Engine.normalizeRecords_ok hrecords (Table.get?_eq_some_iff.mpr he) with
    ⟨given, plugin, hm, hl, hanswer⟩
  rcases h.records e.1 given (Table.get?_eq_some_iff.mpr hm) with ⟨hkey, rfl⟩ | hp
  · -- The start of authority is as wide as the one that it is a copy of.
    have hleft : (engine timeout defaults host).Leaves config name
        (identifier, { authority with name := name }) := leaves_copied horigin h hkept
    rcases hleft with ⟨own, hown, hsame⟩
    rcases hanswer with ⟨before, between, hanswer⟩
    rw [hkey] at hanswer
    cases hl.symm.trans hown
    have hrecord : e.2 = { authority with name := name } :=
      (Except.ok.inj (congrArg Prod.fst ((hsame before).symm.trans hanswer))).symm
    rw [hrecord]
    exact List.all_eq_true.mp hfits _ (Table.get?_eq_some_iff.mp hcopied)
  · have hptr : given.type ∈ [RecordType.a, .ns, .cname, .ptr] := by
      rw [hpointers e.1 given hp]
      decide
    rcases exists_value_of_isReturned ⟨_, _, _, _, _, _, hptr, hl, hanswer⟩ with ⟨-, _, hdata, -⟩
    rw [Layout.fits, hdata]

end Contents

/-- A reverse zone that is normalized has no pointer that leads to no valid name. -/
theorem isValid_of_normalizeZone {zone : Zone} {after : Host}
    (h : (engine timeout defaults host).normalizeZone name reverse state = (.ok zone, after))
    {record : Record} {value : Value} (hr : reverse.records.get? identifier = some record)
    (htype : record.type = .ptr) (hdata : record.data = .single value) :
    Name.isValid value.text = true := by
  rcases Engine.answers_of_normalizeZone h (Table.get?_eq_some_iff.mp hr)
    with ⟨config, plugin, normalized, hl, hanswer⟩
  exact isValid_of_answers_pointer htype hdata hl hanswer

/-! ### Pointers of derived zones -/

section Derived

variable {source : String} {record address : Record}

/-- A pointer of a derived zone was made for a record whose name was checked, in a zone with a
    valid name. -/
theorem names_of_leadsTo (hnames : ∀ name, zones.contains name = true → Name.isValid name = true)
    (hserials : KeepsSerials defaults zones)
    (h : Derivation.LeadsTo ((engine timeout defaults host).passGiven zones host).1.zones name
      identifier record source address) :
    Name.isValid source = true
      ∧ (address.name = Name.origin ∨ Name.isValid address.name = true) := by
  rcases h.given with ⟨zone, hzone, -, hm⟩
  have hkept := isKept_of_passGiven hserials hzone
  have hr := (Zone.mem_recordsOf_iff.mp hm).1
  exact ⟨hnames source (contains_of_passGiven hzone), (hkept.sound.records _ _ hr).header.name⟩

theorem isValid_target_iff (hnames : ∀ name, zones.contains name = true → Name.isValid name = true)
    (hserials : KeepsSerials defaults zones)
    (h : Derivation.LeadsTo ((engine timeout defaults host).passGiven zones host).1.zones name
      identifier record source address) (horigin : address.name ≠ Name.origin) :
    Name.isValid (Reverse.pointerTarget address.name source) = true
      ↔ Reverse.IsPointable address.name source := by
  rcases names_of_leadsTo hnames hserials h with ⟨hsource, haddress⟩
  exact Reverse.isValid_pointerTarget_iff hsource (haddress.resolve_left horigin)

/-- A derived zone whose pointers all can lead where they should comes out as it went in. -/
theorem normalizeZone_derived
    (hnames : ∀ name, zones.contains name = true → Name.isValid name = true)
    (hserials : KeepsSerials defaults zones)
    (h : ((engine timeout defaults host).derivation zones host).zones.get? name = some reverse)
    (hpointable : ∀ source address,
      Derivation.Serves ((engine timeout defaults host).passGiven zones host).1.zones name reverse
        source address →
      address.name ≠ Name.origin ∧ Reverse.IsPointable address.name source) :
    ∃ settled, ∀ state, (engine timeout defaults host).normalizeZone name reverse state
      = (.ok { reverse with config := some settled }, state) := by
  rcases Derivation.contents_ofZones h with
    ⟨source, origin, identifier, authority, hsource, hcontents⟩
  refine normalizeZone_contents (isKept_of_passGiven hserials hsource) hcontents ?_ ?_
  · rintro other record ⟨source, address, hleads⟩
    rcases hleads.exists_octet with ⟨octet, rfl⟩
    exact ⟨rfl, rfl, Name.isValid_decimal octet, _, rfl⟩
  · intro other record value hr htype hdata
    rcases hcontents.records other record hr with ⟨-, rfl⟩ | ⟨source, address, hleads⟩
    · have hsoa := (Zone.mem_recordsOf_iff.mp hcontents.copied).2
      exact absurd (hsoa.symm.trans htype) (by decide)
    · rcases hpointable source address ⟨other, record, hr, hleads⟩ with ⟨horigin, hp⟩
      rcases hleads.exists_octet with ⟨octet, hrecord⟩
      rw [hrecord] at hdata
      cases hdata
      exact (isValid_target_iff hnames hserials hleads horigin).mpr hp

/-- A derived zone that comes out has no pointer that cannot lead where it should. -/
theorem isPointable_of_normalizeZone
    (hnames : ∀ name, zones.contains name = true → Name.isValid name = true)
    (hserials : KeepsSerials defaults zones) {zone : Zone} {after : Host}
    (h : (engine timeout defaults host).normalizeZone name reverse state = (.ok zone, after))
    (hserves : Derivation.Serves ((engine timeout defaults host).passGiven zones host).1.zones name
      reverse source address)
    (horigin : address.name ≠ Name.origin) : Reverse.IsPointable address.name source := by
  rcases hserves with ⟨identifier, record, hr, hleads⟩
  rcases hleads.exists_octet with ⟨octet, hrecord⟩
  rw [hrecord] at hr
  exact (isValid_target_iff hnames hserials hleads horigin).mp
    (isValid_of_normalizeZone h hr rfl rfl)

/-- What reaches the last stage can be written, if what was given can be once it is normalized. -/
theorem zoneFits_of_survives (hserials : KeepsSerials defaults zones)
    (hfits : ∀ name zone,
      ((engine timeout defaults host).passGiven zones host).1.zones.get? name = some zone →
      Layout.zoneFits zone = true) {zone : Zone}
    (h : (engine timeout defaults host).Survives zones host name zone) :
    Layout.zoneFits zone = true := by
  rcases h with hgiven | hderived
  · exact hfits name zone hgiven
  · rcases Engine.passDerived_get?_iff.mp hderived with ⟨reverse, hm⟩
    rcases Engine.result_of_mem_answers hm with ⟨before, hb⟩
    rcases Derivation.contents_ofZones (Engine.get?_of_mem_answers hm) with
      ⟨source, origin, identifier, authority, hsource, hcontents⟩
    refine zoneFits_contents (isKept_of_passGiven hserials hsource) hcontents ?_
      (hfits source origin hsource) (Prod.ext hb rfl)
    rintro other record ⟨source, address, hleads⟩
    rcases hleads.exists_octet with ⟨octet, rfl⟩
    rfl

end Derived

/-! ### What becomes of derived zones -/

theorem exists_mem_derivedAnswers
    (h : ((engine timeout defaults host).derivation zones host).zones.get? name = some reverse) :
    ∃ result before,
      ⟨name, reverse, result⟩ ∈ (engine timeout defaults host).derivedAnswers zones host
        ∧ ((engine timeout defaults host).normalizeZone name reverse before).1 = result := by
  have hasked : ∃ result,
      ⟨name, reverse, result⟩ ∈ (engine timeout defaults host).derivedAnswers zones host :=
    Engine.exists_mem_answers h
  rcases hasked with ⟨result, hm⟩
  rcases Engine.result_of_mem_answers hm with ⟨before, hb⟩
  exact ⟨result, before, hm, hb⟩

theorem text_of_normalizeZone
    (h : ((engine timeout defaults host).derivation zones host).zones.get? name = some reverse)
    (hnormalize : ∃ settled, ∀ state,
      (engine timeout defaults host).normalizeZone name reverse state
        = (.ok { reverse with config := some settled }, state)) :
    ((engine timeout defaults host).generate zones host).1.texts.get? name
      = some (fileText name reverse) := by
  rcases hnormalize with ⟨settled, hsettled⟩
  rcases exists_mem_derivedAnswers h with ⟨result, before, hm, hb⟩
  rw [hsettled] at hb
  subst hb
  exact generate_texts_iff.mpr
    ⟨_, Or.inr (Engine.passDerived_get?_iff.mpr ⟨reverse, hm⟩), rfl⟩

/-- A derived zone that does not come out has no text and is reported. -/
theorem isReported_of_not_normalizeZone
    (h : ((engine timeout defaults host).derivation zones host).zones.get? name = some reverse)
    (hnormalize : ∀ state zone after,
      (engine timeout defaults host).normalizeZone name reverse state ≠ (.ok zone, after)) :
    ((engine timeout defaults host).generate zones host).1.texts.get? name = none
      ∧ ∃ error ∈ ((engine timeout defaults host).generate zones host).1.errors,
        error.zone = name := by
  rcases exists_mem_derivedAnswers h with ⟨result, before, hm, hb⟩
  cases result with
  | ok zone => exact (hnormalize before zone _ (Prod.ext hb rfl)).elim
  | error error =>
      have hdropped : (engine timeout defaults host).IsDerivedDropped zones host name :=
        ⟨reverse, error, hm⟩
      have hnone := Table.contains_eq_false_iff.mp (Engine.not_text_of_isDerivedDropped hdropped)
      exact ⟨hnone, Engine.isReported_iff.mpr (Or.inr (Or.inr (Or.inl hdropped)))⟩

/-- An error names a given zone, or a derived one that did not come out. -/
theorem given_or_derived_of_error (hserials : KeepsSerials defaults zones) {error : ZoneError}
    (h : error ∈ ((engine timeout defaults host).generate zones host).1.errors) :
    zones.contains error.zone = true
      ∨ ∃ reverse,
        ((engine timeout defaults host).derivation zones host).zones.get? error.zone = some reverse
        ∧ ∃ before cause, ((engine timeout defaults host).normalizeZone error.zone reverse before).1
          = .error cause := by
  have hreported : (engine timeout defaults host).IsReported zones host error.zone :=
    ⟨error, h, rfl⟩
  rcases Engine.isReported_iff.mp hreported with hdropped | hunderivable | hderived | hunrendered
  · rcases hdropped with ⟨source, cause, hm⟩
    exact Or.inl (Table.contains_iff.mpr ⟨source, Engine.get?_of_mem_answers hm⟩)
  · rcases hunderivable with ⟨zone, cause, hz, hf⟩
    rw [failure?_of_isKept (isKept_of_passGiven hserials hz)] at hf
    cases hf
  · rcases hderived with ⟨reverse, cause, hm⟩
    rcases Engine.result_of_mem_answers hm with ⟨before, hb⟩
    exact Or.inr ⟨reverse, Engine.get?_of_mem_answers hm, before, cause, hb⟩
  · rcases hunrendered with ⟨zone, cause, hm⟩
    have hresult := (result_of_mem_renderingAnswers hm).2
    cases hresult

/-- If what was given can be written once it is normalized, then a reverse zone whose pointers can
    all lead where they should is rendered as it was derived, and they lead to the absolute names of
    their address records. One with a pointer that cannot is reported and has no text. No other zone
    is reported that was not given, and no zone for the reason that its reverse zones cannot be
    derived. All that is rendered can be written. -/
theorem generate_reverse (timeout : Duration) (defaults : Option Config) (zones : Zones)
    (host : Host) (hnames : ∀ name, zones.contains name = true → Name.isValid name = true)
    (hserials : KeepsSerials defaults zones)
    (hfits : ∀ name zone,
      ((engine timeout defaults host).passGiven zones host).1.zones.get? name = some zone →
      Layout.zoneFits zone = true) :
    (∀ name reverse,
      ((engine timeout defaults host).derivation zones host).zones.get? name = some reverse →
      (∀ source address,
        Derivation.Serves ((engine timeout defaults host).passGiven zones host).1.zones name
          reverse source address → address.name ≠ Name.origin) →
      ((∀ source address,
          Derivation.Serves ((engine timeout defaults host).passGiven zones host).1.zones name
            reverse source address → Reverse.IsPointable address.name source) →
        ((engine timeout defaults host).generate zones host).1.texts.get? name
            = some (fileText name reverse)
          ∧ ∀ identifier record, reverse.records.get? identifier = some record →
            record.type = .ptr →
            ∃ source address,
              Derivation.LeadsTo ((engine timeout defaults host).passGiven zones host).1.zones name
                identifier record source address
              ∧ record.data = .single ⟨Name.qualify address.name source, none⟩)
      ∧ ∀ source address,
        Derivation.Serves ((engine timeout defaults host).passGiven zones host).1.zones name
          reverse source address →
        ¬Reverse.IsPointable address.name source →
        ((engine timeout defaults host).generate zones host).1.texts.get? name = none
          ∧ ∃ error ∈ ((engine timeout defaults host).generate zones host).1.errors,
            error.zone = name)
    ∧ (∀ error ∈ ((engine timeout defaults host).generate zones host).1.errors,
      zones.contains error.zone = true
        ∨ ∃ reverse source address,
          ((engine timeout defaults host).derivation zones host).zones.get? error.zone
            = some reverse
          ∧ Derivation.Serves ((engine timeout defaults host).passGiven zones host).1.zones
            error.zone reverse source address
          ∧ (address.name = Name.origin ∨ ¬Reverse.IsPointable address.name source))
    ∧ ((engine timeout defaults host).derivation zones host).errors = []
    ∧ ∀ name zone, (engine timeout defaults host).Survives zones host name zone →
      Layout.zoneFits zone = true := by
  refine ⟨fun name reverse h horigin => ⟨fun hpointable => ⟨?_, ?_⟩, ?_⟩, ?_,
    errors_derivation hserials, fun _ _ => zoneFits_of_survives hserials hfits⟩
  -- All pointers can lead where they should: the zone comes out.
  · exact text_of_normalizeZone h (normalizeZone_derived hnames hserials h
      fun source address hs => ⟨horigin source address hs, hpointable source address hs⟩)
  · intro identifier record hr htype
    rcases Derivation.contents_ofZones h with ⟨_, _, _, authority, -, hcontents⟩
    rcases hcontents.records identifier record hr with ⟨-, rfl⟩ | ⟨source, address, hleads⟩
    · have hsoa := (Zone.mem_recordsOf_iff.mp hcontents.copied).2
      exact absurd (hsoa.symm.trans htype) (by decide)
    · have hserves : Derivation.Serves _ name reverse source address :=
        ⟨identifier, record, hr, hleads⟩
      have hvalid := (names_of_leadsTo hnames hserials hleads).1
      have htarget := Reverse.pointerTarget_eq_qualify hvalid (horigin source address hserves)
        (hpointable source address hserves)
      rcases hleads.exists_octet with ⟨octet, hrecord⟩
      refine ⟨source, address, hleads, ?_⟩
      rw [hrecord, ← htarget]
      rfl
  -- One of them cannot: no state of the host lets the zone come out.
  · intro source address hserves hnot
    refine isReported_of_not_normalizeZone h fun state zone after hn => hnot ?_
    exact isPointable_of_normalizeZone hnames hserials hn hserves (horigin source address hserves)
  · intro error he
    rcases given_or_derived_of_error hserials he with
      hgiven | ⟨reverse, hreverse, before, cause, hb⟩
    · exact Or.inl hgiven
    · refine Or.inr ⟨reverse, ?_⟩
      by_contra hnone
      -- If there were no such pointer, the zone would have come out.
      have hpointable : ∀ source address,
          Derivation.Serves ((engine timeout defaults host).passGiven zones host).1.zones
            error.zone reverse source address →
          address.name ≠ Name.origin ∧ Reverse.IsPointable address.name source := by
        intro source address hserves
        by_contra hbad
        rw [not_and_or, not_not] at hbad
        exact hnone ⟨source, address, hreverse, hserves, hbad⟩
      rcases normalizeZone_derived hnames hserials hreverse hpointable with ⟨settled, hsettled⟩
      rw [hsettled] at hb
      cases hb

end Builtin

/-! ### Names of all kinds -/

namespace Hosts

open Builtin

def address (name text : String) : Record := { Record.ofValue .a ⟨text, none⟩ with name := name }

/-- A zone with address records that asks for its reverse zones. -/
def zone (addresses : List (String × Record)) : Zone where
  config := some { generateReverse := true }
  records := .ofList (("example.com.", .ofValues .soa [⟨"ns1.example.com.", none⟩,
    ⟨"hostmaster@example.com", none⟩, ⟨"7", none⟩, ⟨"3600", none⟩, ⟨"600", none⟩,
    ⟨"86400", none⟩, ⟨"300", none⟩]) :: addresses)

def zones (addresses : List (String × Record)) : Zones :=
  Table.empty.insert "example.com." (zone addresses)

/-- A relative name and a fully qualified one. -/
def pointable : List (String × Record) :=
  [("www", address "www" "1.2.3.4"), ("mail", address "mail.example.org." "1.2.3.5")]

/-- A name of one label with a dot at its end, and one of four labels that has as many characters
    as a name may have. -/
def unpointable : List (String × Record) :=
  [("top", address "top." "1.2.4.4"),
    ("long", address (".".intercalate (List.replicate 4 (String.ofList (List.replicate 63 'a'))))
      "1.2.5.4")]

variable (addresses : List (String × Record))

theorem isValid_of_contains (name : String) (h : (zones addresses).contains name = true) :
    Name.isValid name = true := by
  rcases Table.contains_iff.mp h with ⟨found, hfound⟩
  by_cases hn : name = "example.com."
  · rw [hn]
    decide
  · rw [zones, Table.get?_insert_of_ne _ _ hn] at hfound
    cases hfound

theorem keepsSerials : KeepsSerials none (zones addresses) := by
  refine ⟨fun config hc => (nomatch hc), Table.forall_insert (fun _ _ hz => nomatch hz) ?_⟩
  intro config hc
  cases hc
  rfl

/-- A reverse zone for the first two is rendered as it was derived. -/
theorem generate_reverse_pointable :
    (∀ name, (zones pointable).contains name = true → Name.isValid name = true)
      ∧ KeepsSerials none (zones pointable)
      ∧ (∀ name zone, ((engine Serial.defaultTimeout none {}).passGiven (zones pointable)
        {}).1.zones.get? name = some zone → Layout.zoneFits zone = true)
      ∧ ∃ reverse,
        ((engine Serial.defaultTimeout none {}).derivation (zones pointable) {}).zones.get?
          "3.2.1.in-addr.arpa." = some reverse
        ∧ ((engine Serial.defaultTimeout none {}).generate (zones pointable) {}).1.texts.get?
          "3.2.1.in-addr.arpa." = some (fileText "3.2.1.in-addr.arpa." reverse) := by
  have hderived : (((engine Serial.defaultTimeout none {}).derivation
      (zones pointable) {}).zones.get? "3.2.1.in-addr.arpa.").isSome = true := by
    decide
  rcases Option.isSome_iff_exists.mp hderived with ⟨reverse, hreverse⟩
  -- Every address record of what was given can be pointed at, whichever zone serves it.
  have hall : ∀ e ∈ ((engine Serial.defaultTimeout none {}).passGiven (zones pointable)
      {}).1.zones.entries, ∀ a ∈ e.2.recordsOf .a,
        a.2.name ≠ Name.origin ∧ Reverse.IsPointable a.2.name e.1 := by
    decide
  have hwritable : ∀ e ∈ ((engine Serial.defaultTimeout none {}).passGiven (zones pointable)
      {}).1.zones.entries, Layout.zoneFits e.2 = true := by
    decide
  have hfits : ∀ name zone, ((engine Serial.defaultTimeout none {}).passGiven (zones pointable)
      {}).1.zones.get? name = some zone → Layout.zoneFits zone = true := fun name zone hz =>
    hwritable (name, zone) (Table.get?_eq_some_iff.mp hz)
  have hserves : ∀ source address, Derivation.Serves
      ((engine Serial.defaultTimeout none {}).passGiven (zones pointable) {}).1.zones
      "3.2.1.in-addr.arpa." reverse source address →
      address.name ≠ Name.origin ∧ Reverse.IsPointable address.name source := by
    rintro source address ⟨identifier, record, -, hleads⟩
    rcases hleads.given with ⟨origin, ho, -, hm⟩
    exact hall (source, origin) (Table.get?_eq_some_iff.mp ho) (identifier, address) hm
  have hreverses := (generate_reverse Serial.defaultTimeout none (zones pointable) {}
    (isValid_of_contains _) (keepsSerials _) hfits).1 "3.2.1.in-addr.arpa." reverse hreverse
  exact ⟨isValid_of_contains _, keepsSerials _, hfits, reverse, hreverse,
    ((hreverses fun source address hs => (hserves source address hs).1).1
      fun source address hs => (hserves source address hs).2).1⟩

/-- Reverse zones for the other two are reported, though nobody gave them. -/
theorem derived_reported :
    (∀ name, (zones unpointable).contains name = true → Name.isValid name = true)
      ∧ KeepsSerials none (zones unpointable)
      ∧ (zones unpointable).keys = ["example.com."]
      ∧ ((engine Serial.defaultTimeout none {}).generate
          (zones unpointable) {}).1.errors.map (·.zone)
        = ["4.2.1.in-addr.arpa.", "5.2.1.in-addr.arpa."] := by
  refine ⟨isValid_of_contains _, keepsSerials _, ?_⟩
  decide +kernel

end Hosts

end DnsZones
