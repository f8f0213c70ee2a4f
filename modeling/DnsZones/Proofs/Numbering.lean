import DnsZones.Proofs.Builtin.Allocation
import DnsZones.Proofs.Soundness
import DnsZones.Proofs.Turns

/-!
# Serial Numbers in Zone Files

The serial number in a zone file is the one on disk.

A zone can be given more than one serial number in a run. One that was given and
refused may have taken a number already, and when a zone is then derived under its
name it takes another; and a zone with two starts of authority takes two before it
is refused for them. What counts is that the last number taken for a name is the
one in its text. That is so because a zone that passes has one start of authority,
and whoever calls after that calls for another name.

A derived zone begins with a start of authority that is numbered already, but the
number is that of the zone it comes from, and is replaced.

## Main definitions

* `Builtin.IsNumbered`: The serial number in a zone's start of authority is the one on disk.

## Theorems

* `Builtin.isNumbered_of_normalizeZone`: Normalizing a zone establishes it.
* `Builtin.IsNumbered.normalizeZone_other`: Normalizing another zone keeps it.
* `Builtin.generate_isNumbered`: It holds of all that is written at the end of a run.
-/

namespace DnsZones

namespace Builtin

variable {timeout : Duration} {defaults : Option Config} {start host after : Host}
  {config : Config} {name identifier : String} {zone : Zone} {source record : Record}
  {plugin : Plugin Host} {directory : Path}

/-- A zone has one start of authority, and its third value is the serial number of the index that
    the store has for the zone's name. -/
structure IsNumbered (directory : Path) (name : String) (zone : Zone) (index : SerialIndex)
    (store : Store) : Prop where
  authority : ∃ identifier record values, zone.recordsOf .soa = [(identifier, record)]
    ∧ record.data = .multi values ∧ (values[2]?).map (·.text) = some index.serial
  kept : Serial.Keeps directory name index store

/-! ### Records -/

/-- A record that is no start of authority does not touch the host. -/
theorem state_of_ne_soa (hl : (registry timeout).lookup record.type = some plugin)
    (hne : record.type ≠ .soa) (host : Host) :
    (plugin.normalize config name identifier record host).2 = host := by
  have hstateless : ∀ (version : String) (type : RecordType)
      (normalize : String → Record → Except Fault Record)
      (validateZone : String → Zone → Except PluginError Unit),
      ((Plugin.stateless version type normalize validateZone).normalize config name identifier
        record host).2 = host := by
    intro version type normalize validateZone
    simp only [Plugin.stateless]
    cases normalize identifier record with
    | error fault => rfl
    | ok normalized => rfl
  rcases lookup_cases hl with ⟨-, rfl⟩ | ⟨-, rfl⟩ | ⟨-, rfl⟩ | ⟨-, rfl⟩ | ⟨hsoa, -⟩
  · exact hstateless _ _ _ _
  · exact hstateless _ _ _ _
  · exact hstateless _ _ _ _
  · exact hstateless _ _ _ _
  · exact absurd hsoa hne

/-- Records of which none is a start of authority do not touch the host. -/
theorem normalizeRecords_of_ne_soa {entries : List (String × Record)}
    (hne : ∀ e ∈ entries, e.2.type ≠ .soa) {records : Table String Record}
    (h : (engine timeout defaults start).normalizeRecords config name entries host
      = (.ok records, after)) : after = host := by
  induction entries generalizing host records with
  | nil =>
      cases h
      rfl
  | cons head rest ih =>
      rcases head with ⟨key, source⟩
      rcases Engine.normalizeRecords_cons_ok h with
        ⟨plugin, normalized, between, others, hl, hn, hrest, -⟩
      have hbetween : (plugin.normalize config name key source host).2 = host :=
        state_of_ne_soa hl (hne _ List.mem_cons_self) host
      rw [hn] at hbetween
      rw [ih (fun e he => hne e (List.mem_cons_of_mem _ he)) hrest]
      exact hbetween

/-- A start of authority that passes was given a serial number by a call for the zone, and has it
    as its third value. -/
theorem normalizeAuthority_numbered (hg : config.generateSerial = true)
    (h : normalizeAuthority timeout config name identifier source host = (.ok record, after)) :
    record.type = source.type
      ∧ ∃ serial values, Serial.next host.store host.today timeout config.serialDirectory name
          = (.ok serial, after.store)
        ∧ record.data = .multi values ∧ (values[2]?).map (·.text) = some serial := by
  cases hc : checkAuthority true (source.withDefaultName identifier) with
  | error fault =>
      simp only [normalizeAuthority, hg, hc] at h
      cases h
  | ok soa =>
      rw [normalizeAuthority_of_check hg hc] at h
      rcases hn : Serial.next host.store host.today timeout config.serialDirectory name
        with ⟨result, store⟩
      rw [Host.called, hn] at h
      cases result with
      | error cause => cases h
      | ok serial =>
          cases h
          exact ⟨type_withDefaultName _ _, serial, _, rfl, rfl, rfl⟩

/-- Among the records that were normalized is the start of authority that took the last serial
    number, if there was any. -/
theorem exists_numbered_of_normalizeRecords {entries : List (String × Record)}
    {records : Table String Record} (hg : config.generateSerial = true) (hz : '/' ∉ name.toList)
    (hkeys : (entries.map (·.1)).Nodup) (hsoa : ∃ e ∈ entries, e.2.type = .soa)
    (hreached : Serial.IsReached host.store config.serialDirectory)
    (h : (engine timeout defaults start).normalizeRecords config name entries host
      = (.ok records, after)) :
    ∃ e ∈ entries, ∃ record values index, records.get? e.1 = some record ∧ record.type = .soa
      ∧ record.data = .multi values ∧ (values[2]?).map (·.text) = some (SerialIndex.serial index)
      ∧ Serial.Keeps config.serialDirectory name index after.store := by
  induction entries generalizing host records with
  | nil =>
      rcases hsoa with ⟨e, he, -⟩
      cases he
  | cons head rest ih =>
      rcases head with ⟨key, source⟩
      rcases List.nodup_cons.mp hkeys with ⟨hkey, hrestkeys⟩
      rcases Engine.normalizeRecords_cons_ok h with
        ⟨plugin, normalized, between, others, hl, hn, hrest, rfl⟩
      by_cases hlater : ∃ e ∈ rest, e.2.type = .soa
      · -- The last one is among the rest, and the first record does not take its place.
        have hasks : Asks plugin timeout config name key source := asks_of_lookup hl
        have hbetween := hasks.invariant
          (motive := fun host => Serial.IsReached host.store config.serialDirectory)
          (fun _ host hhost => hhost.next hz host.today timeout) hreached
        rw [hn] at hbetween
        rcases ih hrestkeys hlater hbetween hrest with ⟨e, he, record, values, index, hget, hfound⟩
        refine ⟨e, List.mem_cons_of_mem _ he, record, values, index, ?_, hfound⟩
        have hne : e.1 ≠ key := fun hsame => hkey (List.mem_map.mpr ⟨e, he, hsame⟩)
        rw [Table.get?_insert_of_ne _ _ hne, hget]
      · -- The first record is the only one, and nothing after it touches the host.
        have hfirst : source.type = .soa := by
          rcases hsoa with ⟨e, he, htype⟩
          rcases List.mem_cons.mp he with rfl | he
          · exact htype
          · exact absurd ⟨e, he, htype⟩ hlater
        have hplugin : plugin = authority timeout := by
          rw [hfirst] at hl
          exact (Option.some.inj hl).symm
        subst hplugin
        rcases normalizeAuthority_numbered hg hn with ⟨htype, serial, values, hnext, hdata, hthird⟩
        rcases hreached.keeps_of_next hz hnext with ⟨index, rfl, hkeeps⟩
        have hafter : after = between :=
          normalizeRecords_of_ne_soa (fun e he htype => hlater ⟨e, he, htype⟩) hrest
        subst hafter
        exact ⟨_, List.mem_cons_self, normalized, values, index, Table.get?_insert_self _ _ _,
          htype.trans hfirst, hdata, hthird, hkeeps⟩

/-! ### Zones -/

/-- A zone that passes and takes its serial numbers from a change index is numbered. -/
theorem isNumbered_of_normalizeZone {source : Zone} (hz : '/' ∉ name.toList)
    (hreached : Serial.IsReached host.store directory)
    (hconfig : zone.config = some config) (hg : config.generateSerial = true)
    (hd : config.serialDirectory = directory)
    (h : (engine timeout defaults start).normalizeZone name source host = (.ok zone, after)) :
    ∃ index, IsNumbered directory name zone index after.store := by
  rcases (zoneIsSound_of_normalizeZone h).authority with ⟨identifier, record, hsoa⟩
  rcases Engine.stages_of_normalizeZone h with
    ⟨settled, prepared, records, between, hsettled, hprepared, hrecords, hvalidated, rfl⟩
  cases hconfig
  subst hd
  -- Neither the first stage nor the last touches the host.
  have hhost : prepared = host :=
    congrArg Prod.snd (hprepared.symm.trans (configureEach_plugins timeout config host))
  have hafter : after = between :=
    congrArg Prod.snd (hvalidated.symm.trans (validateEach_eq timeout name _ between))
  subst hhost hafter
  -- The one start of authority that came out came from one.
  have hm : (identifier, record) ∈ Zone.recordsOf ⟨some config, records, source.ttl⟩ .soa := by
    rw [hsoa]
    exact List.mem_cons_self
  rcases Zone.mem_recordsOf_iff.mp hm with ⟨hget, htype⟩
  rcases Engine.normalizeRecords_ok hrecords hget with ⟨origin, plugin, horigin, hl, hanswer⟩
  have hsource : ∃ e ∈ source.records.entries, e.2.type = .soa :=
    ⟨(identifier, origin), horigin, (type_of_answers hl hanswer).symm.trans htype⟩
  rcases exists_numbered_of_normalizeRecords hg hz source.records.nodup_keys hsource hreached
    hrecords with ⟨e, -, found, values, index, hfound, hfoundtype, hdata, hthird, hkeeps⟩
  -- It is the one that took the last serial number, as there is no other.
  have hsame : (e.1, found) ∈ Zone.recordsOf ⟨some config, records, source.ttl⟩ .soa :=
    Zone.mem_recordsOf_iff.mpr ⟨hfound, hfoundtype⟩
  rw [hsoa, List.mem_singleton] at hsame
  cases hsame
  exact ⟨index, ⟨_, _, values, hsoa, hdata, hthird⟩, hkeeps⟩

/-- Normalizing another zone leaves a zone numbered. -/
theorem IsNumbered.normalizeZone_other {source : Zone} {called : String} {index : SerialIndex}
    (h : IsNumbered directory name zone index host.store) (hz : '/' ∉ name.toList)
    (hc : '/' ∉ called.toList) (hne : called ≠ name)
    (hd : ∀ config, (engine timeout defaults start).resolveConfig source.config = .ok config →
      config.generateSerial = true → config.serialDirectory = directory) :
    IsNumbered directory name zone index
      ((engine timeout defaults start).normalizeZone called source host).2.store := by
  refine ⟨h.authority, ?_⟩
  refine normalizeZone_invariant
    (motive := fun host => Serial.Keeps directory name index host.store)
    (fun config hconfig hg host hhost => ?_) h.kept
  rw [hd config hconfig hg]
  exact hhost.next_other hz hc hne host.today timeout

theorem isReached_normalizeZone {source : Zone}
    (h : Serial.IsReached host.store directory) (hz : '/' ∉ name.toList)
    (hd : ∀ config, (engine timeout defaults start).resolveConfig source.config = .ok config →
      config.generateSerial = true → config.serialDirectory = directory) :
    Serial.IsReached ((engine timeout defaults start).normalizeZone name source host).2.store
      directory := by
  refine normalizeZone_invariant (motive := fun host => Serial.IsReached host.store directory)
    (fun config hconfig hg host hhost => ?_) h
  rw [hd config hconfig hg]
  exact hhost.next hz host.today timeout

/-! ### Stages -/

section Stages

variable {zones others : Zones} {index : SerialIndex}

theorem isReached_stateAfter
    (hzones : SharesDirectory (engine timeout defaults start) directory zones)
    (h : Serial.IsReached host.store directory) :
    Serial.IsReached (Engine.stateAfter (engine timeout defaults start).normalizeZone zones.entries
      host).store directory := by
  refine Engine.stateAfter_invariant
    (motive := fun host : Host => Serial.IsReached host.store directory)
    (fun e he host hhost => ?_) h
  rcases hzones.of_mem he with ⟨hz, hd⟩
  exact isReached_normalizeZone hhost hz hd

/-- A zone that passes a stage is numbered at its end. -/
theorem isNumbered_of_mem_answers {source : Zone}
    (hzones : SharesDirectory (engine timeout defaults start) directory zones)
    (h : Serial.IsReached host.store directory)
    (hm : ⟨name, source, .ok zone⟩
      ∈ Engine.answers (engine timeout defaults start).normalizeZone zones.entries host)
    (hconfig : zone.config = some config) (hg : config.generateSerial = true) :
    ∃ index, IsNumbered directory name zone index
      (Engine.stateAfter (engine timeout defaults start).normalizeZone zones.entries
        host).store := by
  have hsource := Engine.get?_of_mem_answers hm
  have hname := hzones.named name source hsource
  refine Engine.stateAfter_of_mem_answers
    (I := fun host : Host => Serial.IsReached host.store directory)
    (K := fun host : Host => ∃ index, IsNumbered directory name zone index host.store) hm h
    (fun e he host hhost => ?_) (fun host hhost hresult => ?_) (fun e he hne host hhost => ?_)
  · rcases hzones.of_mem he with ⟨hz, hd⟩
    exact isReached_normalizeZone hhost hz hd
  · -- The configuration that came out is the settled one.
    have hnormalized : (engine timeout defaults start).normalizeZone name source host
        = (.ok zone, ((engine timeout defaults start).normalizeZone name source host).2) :=
      Prod.ext hresult rfl
    rcases Engine.normalizeZone_ok hnormalized with ⟨settled, hsettled, hout, -⟩
    rw [hconfig] at hout
    cases hout
    exact isNumbered_of_normalizeZone hname hhost hconfig hg
      (hzones.settled name source hsource config hsettled hg) hnormalized
  · rcases hhost with ⟨index, hindex⟩
    rcases hzones.of_mem he with ⟨hc, hd⟩
    exact ⟨index, hindex.normalizeZone_other hname hc hne hd⟩

/-- A stage without a zone of the name leaves the zone numbered. -/
theorem IsNumbered.stateAfter
    (h : IsNumbered directory name zone index host.store) (hname : '/' ∉ name.toList)
    (hzones : SharesDirectory (engine timeout defaults start) directory zones)
    (habsent : zones.get? name = none) :
    IsNumbered directory name zone index
      (Engine.stateAfter (engine timeout defaults start).normalizeZone zones.entries
        host).store := by
  refine Engine.stateAfter_invariant
    (motive := fun host : Host => IsNumbered directory name zone index host.store)
    (fun e he host hhost => ?_) h
  rcases hzones.of_mem he with ⟨hc, hd⟩
  have hne : e.1 ≠ name := fun hkey => Table.get?_eq_none_iff.mp habsent e.2 (hkey ▸ he)
  exact hhost.normalizeZone_other hname hc hne hd

end Stages

/-! ### Text -/

/-- Whatever comes after a text is put behind it. -/
theorem exists_foldl_entry_eq (entries : List (String × Record)) (text : String) :
    ∃ after, entries.foldl (fun before e => before ++ Engine.entry (Layout.record e.2)) text
      = text ++ after := by
  induction entries generalizing text with
  | nil => exact ⟨"", String.append_empty.symm⟩
  | cons first rest ih =>
      rcases ih (text ++ Engine.entry (Layout.record first.2)) with ⟨after, hafter⟩
      refine ⟨Engine.entry (Layout.record first.2) ++ after, ?_⟩
      rw [List.foldl_cons, hafter, String.append_assoc]

/-- The text of a record stands in the file of its zone, in lines of its own. -/
theorem exists_fileText_eq {e : String × Record} (h : e ∈ zone.records.entries)
    (hne : Layout.record e.2 ≠ "") (name : String) :
    ∃ before after, fileText name zone = before ++ Layout.record e.2 ++ "\n" ++ after := by
  rcases List.append_of_mem h with ⟨earlier, later, hsplit⟩
  have hentry : Engine.entry (Layout.record e.2) = Layout.record e.2 ++ "\n" :=
    if_neg fun hempty => hne (String.isEmpty_iff.mp hempty)
  have hfile : ∃ before, fileText name zone
      = later.foldl (fun before e => before ++ Engine.entry (Layout.record e.2))
        (before ++ (Layout.record e.2 ++ "\n")) := by
    rw [fileText, hsplit, List.foldl_append, List.foldl_cons, hentry]
    exact ⟨_, rfl⟩
  rcases hfile with ⟨before, hbefore⟩
  rcases exists_foldl_entry_eq later (before ++ (Layout.record e.2 ++ "\n")) with ⟨after, hafter⟩
  refine ⟨before, after, ?_⟩
  rw [hbefore, hafter]
  simp only [String.append_assoc]

theorem record_ne_empty {values : List Value} (h : record.data = .multi values) :
    Layout.record record ≠ "" := by
  simp only [Layout.record, h, Layout.multi, ne_eq, String.append_eq_empty_iff, String.reduceEq,
    and_false, not_false_eq_true]

/-! ### Runs -/

section Runs

variable {zones : Zones}

theorem isNumbered_of_survives (hstore : Serial.IsOrderly host.store directory)
    (hzones : SharesDirectory (engine timeout defaults host) directory zones)
    (h : (engine timeout defaults host).Survives zones host name zone)
    (hconfig : zone.config = some config) (hg : config.generateSerial = true) :
    ∃ index, IsNumbered directory name zone index
      ((engine timeout defaults host).passDerived zones host).2.store := by
  have hreached := hstore.isReached
  have hderived : SharesDirectory (engine timeout defaults host) directory
      ((engine timeout defaults host).derivation zones host).zones :=
    sharesDirectory_derivation hzones
  rw [Engine.passDerived, Engine.normalize_state, Engine.passGiven, Engine.normalize_state]
  rcases h with hgiven | hpassed
  · -- A given zone is numbered in its stage, and no zone of its name is derived.
    rcases Engine.passGiven_get?_iff.mp hgiven with ⟨source, hm⟩
    have hname := hzones.named name source (Engine.get?_of_mem_answers hm)
    have habsent : ((engine timeout defaults host).derivation zones host).zones.get? name = none :=
      Derivation.ofZones_get?_of_given (Table.contains_iff.mpr ⟨zone, hgiven⟩)
    rcases isNumbered_of_mem_answers hzones hreached hm hconfig hg with ⟨index, hindex⟩
    exact ⟨index, hindex.stateAfter hname hderived habsent⟩
  · -- A derived zone is numbered in its own, whatever was given under its name.
    rcases Engine.passDerived_get?_iff.mp hpassed with ⟨source, hm⟩
    rw [Engine.derivedAnswers, Engine.passGiven, Engine.normalize_state] at hm
    exact isNumbered_of_mem_answers hderived (isReached_stateAfter hzones hreached) hm hconfig hg

/-- Writing zone files does not touch the host. -/
theorem generate_host : ((engine timeout defaults host).generate zones host).2
    = ((engine timeout defaults host).passDerived zones host).2 := by
  have hrendered : ((engine timeout defaults host).generate zones host).2
      = ((engine timeout defaults host).renderEach
          ((engine timeout defaults host).survivors zones host).entries
          ((engine timeout defaults host).passDerived zones host).2).2 := rfl
  rw [hrendered, (Engine.renderEach_eq _ _ _).2.2]
  refine Engine.stateAfter_invariant
    (motive := fun other => other = ((engine timeout defaults host).passDerived zones host).2)
    (fun e he other hother => ?_) rfl
  have hsurvives := Engine.survives_iff.mpr (Table.get?_eq_some_iff.mpr he)
  rw [render_of_survives hsurvives]
  exact hother

end Runs

/-- Text and disk agree after a run. Every text is that of a zone, given or derived, that reached
    the last stage; and if the zone takes its serial numbers from a change index, then its one
    start of authority stands in the text, and the third value is the serial number of the index
    that is on disk for the zone at the end of the run. Writing the zone files touches nothing on
    disk at all. -/
theorem generate_isNumbered (timeout : Duration) (defaults : Option Config) (host : Host)
    (directory : Path) (zones : Zones) (hstore : Serial.IsOrderly host.store directory)
    (hzones : SharesDirectory (engine timeout defaults host) directory zones) :
    (∀ name text,
      ((engine timeout defaults host).generate zones host).1.texts.get? name = some text →
      ∃ zone, (engine timeout defaults host).Survives zones host name zone
        ∧ ∀ config, zone.config = some config → config.generateSerial = true →
          ∃ identifier record values index, zone.recordsOf .soa = [(identifier, record)]
            ∧ record.data = .multi values
            ∧ (values[2]?).map (·.text) = some (SerialIndex.serial index)
            ∧ (∃ before after, text = before ++ Layout.multi record values ++ "\n" ++ after)
            ∧ Serial.current ((engine timeout defaults host).generate zones host).2.store
              directory name = .ok (some index))
    ∧ ((engine timeout defaults host).generate zones host).2
      = ((engine timeout defaults host).passDerived zones host).2 := by
  refine ⟨fun name text htext => ?_, generate_host⟩
  rcases generate_texts_iff.mp htext with ⟨zone, hsurvives, rfl⟩
  refine ⟨zone, hsurvives, fun config hconfig hg => ?_⟩
  rcases isNumbered_of_survives hstore hzones hsurvives hconfig hg
    with ⟨index, ⟨identifier, record, values, hsoa, hdata, hthird⟩, d, -, hcurrent⟩
  refine ⟨identifier, record, values, index, hsoa, hdata, hthird, ?_, ?_⟩
  · have hm : (identifier, record) ∈ zone.recordsOf .soa := by
      rw [hsoa]
      exact List.mem_cons_self
    have hlayout : Layout.record record = Layout.multi record values := by
      rw [Layout.record, hdata]
    rw [← hlayout]
    exact exists_fileText_eq (Table.get?_eq_some_iff.mp (Zone.mem_recordsOf_iff.mp hm).1)
      (record_ne_empty hdata) name
  · rw [generate_host]
    exact hcurrent

end Builtin

/-! ### A derived zone with an index -/

namespace Renumbered

open Builtin

/-- A zone that takes its serial numbers from a change index, with one address that asks for its
    reverse zone. -/
def forward : Zone where
  config := some { generateSerial := true, generateReverse := true, serialDirectory := ⟨"/"⟩ }
  records := .ofList [
    ("example.com.", .ofValues .soa [⟨"ns1.example.com.", none⟩, ⟨"hostmaster@example.com", none⟩,
      ⟨"3600", none⟩, ⟨"600", none⟩, ⟨"86400", none⟩, ⟨"300", none⟩]),
    ("host1", .ofValue .a ⟨"1.2.3.4", none⟩)]

def zones : Zones := Table.empty.insert "example.com." forward

def reverseName : String := "3.2.1.in-addr.arpa."

/-- What an earlier run left of the reverse zone. -/
def stored : File where
  content := "\x7b\"base_serial_number\":20240517,\"change_index\":4\x7d".toUTF8

/-- A host with that file, and a run that begins on the day before. -/
def host : Host where
  store := { entries := Table.empty.insert [reverseName ++ ".serial"] (.file stored) }
  today := ⟨2024, 5, 16, by decide, by decide⟩
  laterDates := [⟨2024, 5, 17, by decide, by decide⟩]

/-- The third value of a record. -/
def third (record : Record) : Option String :=
  match record.data with
  | .multi values => (values[2]?).map (·.text)
  | .single _ => none

theorem isOrderly_host : Serial.IsOrderly host.store ⟨"/"⟩ where
  isAbsolute := by decide
  noLinks := by
    have hroot : Serial.prepared host.store ⟨"/"⟩ = host.store :=
      Serial.prepared_of_directory (d := []) rfl
    have hfiles : ∀ location entry, host.store.entries.get? location = some entry →
        ∀ target, entry ≠ .link target :=
      Table.forall_insert (fun _ _ he => nomatch he) fun _ => nofun
    intro d hd name target he
    rw [hroot] at hd he
    cases hd
    exact hfiles _ _ he target rfl

theorem sharesDirectory_zones :
    SharesDirectory (engine Serial.defaultTimeout none host) ⟨"/"⟩ zones := by
  refine ⟨Table.forall_insert (fun _ _ hz => nomatch hz) (by decide),
    Table.forall_insert (fun _ _ hz => nomatch hz) fun settled hsettled _ => ?_⟩
  cases hsettled
  rfl

end Renumbered

/-- The reverse zone starts from the first serial number of the other zone, and has the next one of
    its own in its text and on disk, though another day has begun in between. -/
theorem Builtin.generate_isNumbered_derived :
    Serial.IsOrderly Renumbered.host.store ⟨"/"⟩
      ∧ SharesDirectory (engine Serial.defaultTimeout none Renumbered.host) ⟨"/"⟩ Renumbered.zones
      ∧ ∃ text zone identifier record values index,
        ((engine Serial.defaultTimeout none Renumbered.host).generate Renumbered.zones
          Renumbered.host).1.texts.get? Renumbered.reverseName = some text
        ∧ (engine Serial.defaultTimeout none Renumbered.host).Survives Renumbered.zones
          Renumbered.host Renumbered.reverseName zone
        ∧ zone.recordsOf .soa = [(identifier, record)] ∧ record.data = .multi values
        ∧ (values[2]?).map (·.text) = some (SerialIndex.serial index)
        ∧ Serial.current ((engine Serial.defaultTimeout none Renumbered.host).generate
          Renumbered.zones Renumbered.host).2.store ⟨"/"⟩ Renumbered.reverseName = .ok (some index)
        ∧ index.serial = "2024051705" := by
  -- The configuration and the text of the serial number, as they come out.
  have hout : ((engine Serial.defaultTimeout none Renumbered.host).survivors Renumbered.zones
      Renumbered.host).contains Renumbered.reverseName = true
      ∧ ∀ e ∈ ((engine Serial.defaultTimeout none Renumbered.host).survivors Renumbered.zones
        Renumbered.host).entries, e.1 = Renumbered.reverseName →
        e.2.config = Renumbered.forward.config
          ∧ ∀ soa ∈ e.2.recordsOf .soa, Renumbered.third soa.2 = some "2024051705" := by
    decide
  rcases Table.contains_iff.mp hout.1 with ⟨survivor, hsurvivor⟩
  have htext := generate_texts_iff.mpr ⟨survivor, Engine.survives_iff.mpr hsurvivor, rfl⟩
  rcases (generate_isNumbered Serial.defaultTimeout none Renumbered.host ⟨"/"⟩ Renumbered.zones
    Renumbered.isOrderly_host Renumbered.sharesDirectory_zones).1 _ _ htext with ⟨zone, hzone, hall⟩
  rcases hout.2 _ (Table.get?_eq_some_iff.mp (Engine.survives_iff.mp hzone)) rfl
    with ⟨hconfig, hserial⟩
  rcases hall _ hconfig rfl
    with ⟨identifier, record, values, index, hsoa, hdata, hthird, -, hcurrent⟩
  have hnumber : Renumbered.third record = some "2024051705" :=
    hserial (identifier, record) (hsoa ▸ List.mem_cons_self)
  rw [Renumbered.third, hdata] at hnumber
  exact ⟨Renumbered.isOrderly_host, Renumbered.sharesDirectory_zones, _, zone, identifier,
    record, values, index, htext, hzone, hsoa, hdata, hthird, hcurrent,
    Option.some.inj (hthird.symm.trans hnumber)⟩

end DnsZones
