import DnsZones.Proofs.Builtin.Allocation
import DnsZones.Proofs.Builtin.Settled

/-!
# Normalizing a Second Time

A zone that the builtin plugins normalized comes out of a second pass as it went in.

Everything that normalizing changes it changes for good: a configuration whose serial
directory is absolute is settled, a record that took its identifier or the sign of the
zone for a name has a name, and a mailbox in the form of a name stays in it. So every
record of the zone is left alone, whatever the defaults, the host and the working
directory of the second pass are.

The one exception is meant to be one. Where the zone takes its serial numbers from a
change index, a second pass asks for another number; of the seven values of the start
of authority that is the only one that may change, and its comment stays. Whether
there is another number to be had is up to the change index alone.

## Theorems

* `Builtin.leaves_of_answers`: What a builtin plugin normalized it leaves alone.
* `Builtin.exists_authority_of_answers`: A start of authority with a number given out.
* `Builtin.checkZone_insert`: The checks of the zone do not look at serial numbers.
* `Builtin.normalizeZone_again`: Normalizing a zone a second time.
-/

namespace DnsZones

namespace Builtin

variable {timeout timeout' : Duration} {defaults defaults' : Option Config}
  {start start' state after : Host} {config : Config} {name zoneName identifier : String}
  {source record : Record} {plugin : Plugin Host} {definition zone : Zone}

/-! ### Records -/

theorem checkOrOrigin_of_headerIsSound (h : HeaderIsSound record) :
    Name.checkOrOrigin record.name = .ok () := by
  rcases h.name with horigin | hvalid
  · rw [horigin]
    rfl
  · exact checkOrOrigin_of_isValid hvalid

theorem normalizeAddress_again (h : normalizeAddress identifier source = .ok record) :
    normalizeAddress identifier record = .ok record := by
  rcases normalizeAddress_eq_ok_iff.mp h with ⟨-, value, address, hvalue, haddress⟩
  have hname := (checkSingle_eq_ok_iff.mp hvalue).2.1
  exact normalizeAddress_eq_ok_iff.mpr ⟨(withDefaultName_of_checkOrOrigin hname identifier).symm,
    value, address, hvalue, haddress⟩

theorem normalizeReference_again (h : normalizeReference name source = .ok record) :
    normalizeReference name record = .ok record := by
  rcases normalizeReference_eq_ok_iff.mp h with ⟨-, value, hvalue, hcheck⟩
  have hname := (checkSingle_eq_ok_iff.mp hvalue).2.1
  exact normalizeReference_eq_ok_iff.mpr ⟨(withDefaultName_of_checkOrOrigin hname name).symm,
    value, hvalue, hcheck⟩

/-- What a builtin plugin normalized the same plugin leaves alone, unless it is a start of
    authority whose serial number is to be given out. -/
theorem leaves_of_answers (hl : (registry timeout).lookup source.type = some plugin)
    (h : Answers (plugin.normalize config zoneName identifier source) record)
    (hserial : record.type = .soa → config.generateSerial = false) :
    (engine timeout' defaults' start').Leaves config zoneName (identifier, record) := by
  have htype := type_of_answers hl h
  rcases lookup_cases hl with ⟨ht, rfl⟩ | ⟨ht, rfl⟩ | ⟨ht, rfl⟩ | ⟨ht, rfl⟩ | ⟨ht, rfl⟩
  · exact leaves_of_stateless (by rw [htype, ht]; rfl)
      (normalizeAddress_again (of_answers_stateless h))
  · rw [nameServer] at h
    have hn := of_answers_stateless h
    have hagain := normalizeReference_again hn
    exact ⟨nameServer, by rw [htype, ht]; rfl, fun state => by
      simp only [nameServer, Plugin.stateless, hagain]⟩
  · exact leaves_of_stateless (by rw [htype, ht]; rfl)
      (normalizeReference_again (of_answers_stateless h))
  · exact leaves_of_stateless (by rw [htype, ht]; rfl)
      (normalizeReference_again (of_answers_stateless h))
  · have hsoa := htype.trans ht
    have hkept := hserial hsoa
    have hsettled := isSettledAuthority_of_answers hkept hsoa hl h
    exact leaves_authority hkept hsettled
      (checkOrOrigin_of_headerIsSound (recordIsSound_of_answers hl h).header)

/-! ### The start of authority -/

/-- A start of authority that was given a serial number is in order, and takes another one in its
    place. -/
theorem exists_authority_of_answers (hg : config.generateSerial = true)
    (htype : record.type = .soa) (hl : (registry timeout).lookup source.type = some plugin)
    (h : Answers (plugin.normalize config zoneName identifier source) record) :
    ∃ (soa : Soa) (given : Value), record.data = .multi soa.toValues ∧ soa.serial = some given
      ∧ record.withDefaultName identifier = record ∧ checkAuthority true record = .ok soa := by
  have hsource : source.type = .soa := (type_of_answers hl h).symm.trans htype
  have hplugin : plugin = authority timeout := by
    rw [hsource] at hl
    exact (Option.some.inj hl).symm
  subst hplugin
  rcases h with ⟨before, after, h⟩
  change normalizeAuthority timeout config zoneName identifier source before = _ at h
  cases hc : checkAuthority config.generateSerial (source.withDefaultName identifier) with
  | error fault =>
      simp only [normalizeAuthority, hc] at h
      cases h
  | ok soa =>
      rw [hg] at hc
      rw [normalizeAuthority_of_check hg hc] at h
      cases hn : (Serial.next before.store before.today timeout config.serialDirectory
          zoneName).1 with
      | error cause =>
          rw [hn] at h
          cases h
      | ok serial =>
          obtain ⟨hdata, hheader⟩ : record.data = .multi (soa.withSerial serial).toValues
              ∧ record.classText = (source.withDefaultName identifier).classText
                ∧ record.name = (source.withDefaultName identifier).name := by
            rw [hn] at h
            cases h
            exact ⟨rfl, rfl, rfl⟩
          rcases checkAuthority_eq_ok_iff.mp hc with ⟨hclass, hname, values, given, -, -, -, hcheck⟩
          rw [← hheader.1] at hclass
          rw [← hheader.2] at hname
          -- What was checked once is in order with any serial number.
          rcases check_eq_ok_iff.mp (check_check hcheck) with
            ⟨hprimary, hnumeric, mailbox, hmailbox, hsame⟩
          have hagain : (soa.withSerial serial).check true = .ok (soa.withSerial serial) :=
            check_eq_ok_iff.mpr ⟨hprimary,
              ⟨fun h => Bool.noConfusion h, hnumeric.refresh, hnumeric.retry, hnumeric.expire,
                hnumeric.minimum⟩,
              mailbox, hmailbox, congrArg (Soa.withSerial · serial) hsame⟩
          refine ⟨soa.withSerial serial, ⟨serial, soa.serial.bind (·.comment)⟩, hdata, rfl,
            withDefaultName_of_checkOrOrigin hname identifier, ?_⟩
          exact checkAuthority_eq_ok_iff.mpr ⟨hclass, hname, _, soa.withSerial serial, hdata,
            ofValues?_toValues _, fun h => Bool.noConfusion h, hagain⟩

/-! ### The zone -/

theorem checkZone_eq_ok_iff : checkZone name zone = .ok ()
    ↔ validateReferences name zone = .ok () ∧ validateAuthority name zone = .ok () := by
  rw [checkZone]
  cases validateReferences name zone with
  | error cause =>
      constructor
      · intro h
        cases h
      · rintro ⟨h, -⟩
        cases h
  | ok _ =>
      cases validateAuthority name zone with
      | error cause =>
          constructor
          · intro h
            cases h
          · rintro ⟨-, h⟩
            cases h
      | ok _ => exact ⟨fun _ => ⟨rfl, rfl⟩, fun _ => rfl⟩

/-- A zone whose start of authority is exchanged for another is accepted as before. -/
theorem checkZone_insert {old : Record} (h : checkZone name zone = .ok ())
    (hold : zone.recordsOf .soa = [(identifier, old)]) (htype : record.type = .soa) :
    checkZone name (zone.insert identifier record) = .ok () := by
  have hm : (identifier, old) ∈ zone.recordsOf .soa := by
    rw [hold]
    exact List.mem_singleton_self _
  rcases Zone.mem_recordsOf_iff.mp hm with ⟨hget, holdType⟩
  have hsame : ∀ type, type ≠ .soa →
      (zone.insert identifier record).recordsOf type = zone.recordsOf type := fun type hne =>
    Zone.recordsOf_insert_of_ne hget (by rw [holdType]; exact hne.symm)
      (by rw [htype]; exact hne.symm)
  rcases checkZone_eq_ok_iff.mp h with ⟨hreferences, -⟩
  refine checkZone_eq_ok_iff.mpr ⟨?_, ?_⟩
  · have haddresses : addressNames name (zone.insert identifier record)
        = addressNames name zone := by
      rw [addressNames, addressNames, hsame .a (by decide)]
    have hdangling : dangling name (zone.insert identifier record) = dangling name zone := by
      rw [dangling, dangling, hsame .cname (by decide), haddresses]
    rw [validateReferences, hdangling]
    exact hreferences
  · rw [validateAuthority, Zone.recordsOf_insert_of_singleton hold htype]
    rfl

/-- A zone that was normalized is accepted as a whole. -/
theorem checkZone_of_normalizeZone
    (h : (engine timeout defaults start).normalizeZone name definition state = (.ok zone, after)) :
    checkZone name zone = .ok () := by
  rcases Engine.stages_of_normalizeZone h with
    ⟨config, prepared, records, between, -, -, -, hvalidate, rfl⟩
  have hpassed := validateEach_eq timeout name ⟨some config, records, definition.ttl⟩ between
  exact (congrArg Prod.fst hpassed).symm.trans (congrArg Prod.fst hvalidate)

/-- The configuration of a zone that was normalized is settled wherever the host is. -/
theorem resolveConfig_of_normalizeZone
    (h : (engine timeout defaults start).normalizeZone name definition state = (.ok zone, after)) :
    ∃ config, (engine timeout defaults start).resolveConfig definition.config = .ok config
      ∧ zone.config = some config ∧ ∀ timeout' defaults' start',
        (engine timeout' defaults' start').resolveConfig zone.config = .ok config := by
  rcases Engine.normalizeZone_ok h with ⟨config, hconfig, hzone, -, -⟩
  refine ⟨config, hconfig, hzone, fun timeout' defaults' start' => ?_⟩
  rw [hzone]
  exact resolveConfig_of_isAbsolute (isAbsolute_of_resolveConfig hconfig)

/-- Every record of a zone that was normalized is left alone, but for a start of authority whose
    serial number is to be given out. -/
theorem leaves_of_normalizeZone
    (h : (engine timeout defaults start).normalizeZone name definition state = (.ok zone, after))
    (hzone : zone.config = some config) (hr : zone.records.get? identifier = some record)
    (hserial : record.type = .soa → config.generateSerial = false) :
    (engine timeout' defaults' start').Leaves config name (identifier, record) := by
  rcases Engine.normalizeZone_ok h with ⟨settled, -, hsettled, hrecords, -⟩
  cases hzone.symm.trans hsettled
  rcases hrecords identifier record hr with ⟨origin, plugin, hl, hanswer⟩
  exact leaves_of_answers hl hanswer hserial

/-- A start of authority with another serial number; the comment beside the old one stays. -/
def renumbered (record : Record) (soa : Soa) (given : Value) (serial : String) : Record :=
  { record with data := .multi { soa with serial := some { given with text := serial } }.toValues }

/-- A start of authority that has a serial number is given another one, if there is one. -/
theorem normalizeAuthority_renumbered {soa : Soa} {given : Value}
    (hg : config.generateSerial = true) (hgiven : soa.serial = some given)
    (hnamed : record.withDefaultName identifier = record)
    (hcheck : checkAuthority true record = .ok soa) (host : Host) :
    normalizeAuthority timeout config name identifier record host
      = (((Serial.next host.store host.today timeout config.serialDirectory name).1.mapError
          PluginError.serial).map (renumbered record soa given),
        host.called timeout config.serialDirectory name) := by
  have hcall : normalizeAuthority timeout config name identifier record host
      = (((Serial.next host.store host.today timeout config.serialDirectory name).1.mapError
          PluginError.serial).map fun serial =>
            { record.withDefaultName identifier with
              data := .multi (soa.withSerial serial).toValues },
        host.called timeout config.serialDirectory name) :=
    normalizeAuthority_of_check hg (by rw [hnamed]; exact hcheck) host
  have hvalues : ∀ serial, soa.withSerial serial
      = { soa with serial := some { given with text := serial } } := by
    intro serial
    rw [Soa.withSerial, hgiven]
    rfl
  simp only [hnamed, hvalues] at hcall
  exact hcall

/-- A zone whose start of authority alone needs anything done comes out with another serial number,
    or is refused for want of one. -/
theorem normalizeZone_renumbered {soa : Soa} {given : Value}
    (hresolve : (engine timeout defaults start).resolveConfig zone.config = .ok config)
    (hzone : zone.config = some config) (hg : config.generateSerial = true)
    (hchecked : checkZone name zone = .ok ()) (hsoa : zone.recordsOf .soa = [(identifier, record)])
    (hgiven : soa.serial = some given) (hnamed : record.withDefaultName identifier = record)
    (hcheck : checkAuthority true record = .ok soa)
    (hleaves : ∀ e ∈ zone.records.entries, e.1 ≠ identifier →
      (engine timeout defaults start).Leaves config name e) (host : Host) :
    (engine timeout defaults start).normalizeZone name zone host
      = (((Serial.next host.store host.today timeout config.serialDirectory name).1.mapError
          fun cause => ⟨name, .normalize identifier (.serial cause)⟩).map fun serial =>
            zone.insert identifier (renumbered record soa given serial),
        host.called timeout config.serialDirectory name) := by
  rcases Zone.mem_recordsOf_iff.mp (hsoa ▸ List.mem_singleton_self (identifier, record)) with
    ⟨hget, htype⟩
  have hplugin : (engine timeout defaults start).registry.lookup record.type
      = some (authority timeout) := by
    rw [htype]
    rfl
  have hcall : (authority timeout).normalize config name identifier record host = _ :=
    normalizeAuthority_renumbered hg hgiven hnamed hcheck host
  have hinsert : ∀ normalized, (⟨some config, zone.records.insert identifier normalized,
      zone.ttl⟩ : Zone) = zone.insert identifier normalized := fun normalized => by
    rw [Zone.insert, hzone]
  have hpassed : ∀ serial,
      checkZone name (zone.insert identifier (renumbered record soa given serial)) = .ok () :=
    fun _ => checkZone_insert hchecked hsoa htype
  rw [normalizeZone_eq hresolve,
    Engine.normalizeRecords_of_leaves_others hget hplugin hleaves host, hcall]
  cases (Serial.next host.store host.today timeout config.serialDirectory name).1 with
  | error cause => rfl
  | ok serial =>
      simp only [Except.mapError, Except.map, Except.bind, hinsert, hpassed]

/-- **Normalizing a second time changes nothing but a serial number that is given out.** A zone
    that was normalized comes out of a second pass as it went in, whatever the defaults are and
    whatever has become of the host; and if it takes its serial numbers from a change index, it
    does so with another number in the one place for it, or the change index gave none. -/
theorem normalizeZone_again
    (h : (engine timeout defaults start).normalizeZone name definition state = (.ok zone, after)) :
    ∃ config, (engine timeout defaults start).resolveConfig definition.config = .ok config
      ∧ zone.config = some config
      ∧ (config.generateSerial = false → ∀ timeout' defaults' start' host,
        (engine timeout' defaults' start').normalizeZone name zone host = (.ok zone, host))
      ∧ (config.generateSerial = true → ∃ identifier record soa given,
        zone.recordsOf .soa = [(identifier, record)] ∧ record.data = .multi soa.toValues
        ∧ soa.serial = some given ∧ ∀ timeout' defaults' start' host,
          (engine timeout' defaults' start').normalizeZone name zone host
            = (((Serial.next host.store host.today timeout' config.serialDirectory name).1.mapError
                fun cause => ⟨name, .normalize identifier (.serial cause)⟩).map fun serial =>
                  zone.insert identifier (renumbered record soa given serial),
              host.called timeout' config.serialDirectory name)) := by
  rcases resolveConfig_of_normalizeZone h with ⟨config, hconfig, hzone, hagain⟩
  have hchecked := checkZone_of_normalizeZone h
  refine ⟨config, hconfig, hzone, fun hg timeout' defaults' start' host => ?_, fun hg => ?_⟩
  · have hsame : { zone with config := some config } = zone := by rw [← hzone]
    have hnormalized := Engine.normalizeZone_of_leaves (hagain timeout' defaults' start')
      (configureEach_plugins timeout' config host)
      (fun e he => leaves_of_normalizeZone h hzone (Table.get?_eq_some_iff.mpr he) fun _ => hg)
      (by rw [hsame]; exact (validateEach_eq timeout' name zone host).trans (by rw [hchecked]))
    rw [hsame] at hnormalized
    exact hnormalized
  · rcases (zoneIsSound_of_normalizeZone h).authority with ⟨identifier, record, hsoa⟩
    rcases Zone.mem_recordsOf_iff.mp (hsoa ▸ List.mem_singleton_self (identifier, record)) with
      ⟨hget, htype⟩
    rcases Engine.normalizeZone_ok h with ⟨settled, -, hsettled, hrecords, -⟩
    cases hzone.symm.trans hsettled
    rcases hrecords identifier record hget with ⟨origin, plugin, hl, hanswer⟩
    rcases exists_authority_of_answers hg htype hl hanswer with
      ⟨soa, given, hdata, hgiven, hnamed, hcheck⟩
    refine ⟨identifier, record, soa, given, hsoa, hdata, hgiven,
      fun timeout' defaults' start' host => ?_⟩
    refine normalizeZone_renumbered (hagain timeout' defaults' start') hzone hg hchecked hsoa hgiven
      hnamed hcheck (fun e he hne => ?_) host
    -- No other record is a start of authority.
    have hfound := Table.get?_eq_some_iff.mpr he
    refine leaves_of_normalizeZone h hzone hfound fun hother => absurd ?_ hne
    have hm : (e.1, e.2) ∈ zone.recordsOf .soa := Zone.mem_recordsOf_iff.mpr ⟨hfound, hother⟩
    rw [hsoa, List.mem_singleton] at hm
    exact congrArg Prod.fst hm

end Builtin

/-! ### Two passes -/

namespace Repeated

open Builtin

/-- The values of a start of authority. -/
def values (mailbox : String) (serial : Value) : Soa :=
  ⟨⟨"ns1.example.com.", none⟩, ⟨mailbox, none⟩, some serial, ⟨"3600", none⟩, ⟨"600", none⟩,
    ⟨"86400", none⟩, ⟨"300", none⟩⟩

/-- A zone with these names and values. -/
def zone (generating : Bool) (owner server mailbox : String) (serial : Value) : Zone where
  config := some { generateSerial := generating, serialDirectory := ⟨"/"⟩ }
  records := .ofList [
    ("example.com.",
      { name := owner, type := .soa, data := .multi (values mailbox serial).toValues }),
    ("server", { name := server, type := .ns, data := .single ⟨"ns1.example.com.", none⟩ })]

/-- A zone whose records have no names, and whose mailbox is not in the form of a name. -/
def definition (generating : Bool) : Zone :=
  zone generating "" "" "host.master@example.com" ⟨"7", some "kept"⟩

/-- The zone as it is normalized. -/
def normalized (generating : Bool) (serial : String) : Zone :=
  zone generating "example.com." "@" "host\\.master.example.com." ⟨serial, some "kept"⟩

def host : Host where
  store := {}
  today := ⟨2026, 11, 29, by decide, by decide⟩

/-- A host with the index that the first pass leaves, on the same day. -/
def later : Host where
  store := {
    entries := Table.empty.insert ["example.com..serial"] (.file {
      content := "\x7b\"base_serial_number\":20261129,\"change_index\":1\x7d\n".toUTF8 }) }
  today := host.today

/-- One pass over a zone. -/
def pass (zone : Zone) (host : Host) : Except ZoneError Zone × Host :=
  (engine Serial.defaultTimeout none host).normalizeZone "example.com." zone host

/-- Without an index the second pass changes nothing, though the first one did; with one, it puts
    the second serial number of the day into the place of the first. -/
theorem normalizeZone_again_named :
    (pass (definition false) host).1 = .ok (normalized false "7")
      ∧ (pass (normalized false "7") host).1 = .ok (normalized false "7")
      ∧ (pass (definition true) host).1 = .ok (normalized true "2026112901")
      ∧ (pass (normalized true "2026112901") later).1 = .ok (normalized true "2026112902") := by
  have hplain : (pass (definition false) host).1 = .ok (normalized false "7") := by
    decide
  have hnumbered : (pass (definition true) host).1 = .ok (normalized true "2026112901") := by
    decide
  have hagain : (pass (normalized false "7") host).1 = .ok (normalized false "7") := by
    rcases normalizeZone_again (Prod.ext hplain rfl) with ⟨config, -, hzone, hsame, -⟩
    cases hzone
    exact congrArg Prod.fst (hsame rfl Serial.defaultTimeout none host host)
  refine ⟨hplain, hagain, hnumbered, ?_⟩
  rcases normalizeZone_again (Prod.ext hnumbered rfl) with ⟨config, -, hzone, -, hother⟩
  cases hzone
  rcases hother rfl with ⟨identifier, record, soa, given, hsoa, hdata, hgiven, hpass⟩
  cases hsoa
  have hvalues : soa = values "host\\.master.example.com." ⟨"2026112901", some "kept"⟩ := by
    have hread := congrArg Soa.ofValues? (RecordData.multi.inj hdata)
    rw [ofValues?_toValues, ofValues?_toValues] at hread
    exact (Option.some.inj hread).symm
  subst hvalues
  cases hgiven
  have hserial : (Serial.next later.store later.today Serial.defaultTimeout ⟨"/"⟩ "example.com.").1
      = .ok "2026112902" := by
    decide
  have hsecond := congrArg Prod.fst (hpass Serial.defaultTimeout none later later)
  simp only [hserial] at hsecond
  exact hsecond

end Repeated

end DnsZones
