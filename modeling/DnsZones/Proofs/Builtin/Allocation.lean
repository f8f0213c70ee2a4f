import DnsZones.Proofs.Builtin.Zones
import DnsZones.Proofs.Reverse
import DnsZones.Proofs.Serial.Independence
import DnsZones.Proofs.Stages

/-!
# What Normalizing Does to the Host

The builtin plugins touch the host in one place only.

Configuring and validating leave the host alone, and so does normalizing a record
unless it is a start of authority whose serial number is to be given out. Then one
call for the zone is made, on the store and the day of the host. So whatever calls
for a zone keep, normalizing the zone keeps.

The same is said of two hosts. If calls for a zone give the same on both, then
normalizing the zone does, because nothing else is ever read from the host.

Where all zones of a run share a directory, the zones derived from them do, since
a derived zone has the settled configuration of the zone that it comes from.

## Main definitions

* `Host.HasFixedClock`: It is the same day during the whole run.
* `Host.called`: The host after a call for a serial number.
* `PluginError.mapCause`, `ZoneError.mapCause`: Errors with the words of the system about the
  serial directory changed.
* `Builtin.IsAlike`: Two hosts on which a zone is given the same serial numbers.
* `Builtin.SharesDirectory`: What is assumed of the zones of a run.

## Theorems

* `Builtin.normalizeZone_eq`: Normalizing a zone, stage by stage.
* `Builtin.normalizeZone_invariant`: What calls for a zone keep, normalizing it keeps.
* `Builtin.IsAlike.normalizeZone`: Normalizing a zone on two hosts that are alike to it.
* `Builtin.IsAlike.normalizeZone_other`: Normalizing another zone keeps them alike.
* `Builtin.sharesDirectory_derivation`: Derived zones share the directory of the given ones.
-/

namespace DnsZones

/-- The clock gives the same date at every allocation. -/
def Host.HasFixedClock (host : Host) : Prop := ∀ date ∈ host.laterDates, date = host.today

theorem Host.HasFixedClock.today_tick {host : Host} (h : host.HasFixedClock) :
    host.tick.today = host.today := by
  unfold Host.tick
  split
  · rfl
  · next date later hdates => exact h date (hdates ▸ List.mem_cons_self)

theorem Host.HasFixedClock.tick {host : Host} (h : host.HasFixedClock) :
    host.tick.HasFixedClock := by
  intro date hm
  rw [h.today_tick]
  unfold Host.tick at hm
  split at hm
  · exact h date hm
  · next later hdates => exact h date (hdates ▸ List.mem_cons_of_mem _ hm)

/-- The host after a call for the next serial number of a zone. -/
def Host.called (host : Host) (timeout : Duration) (directory : Path) (zone : String) : Host :=
  { host.tick with store := (Serial.next host.store host.today timeout directory zone).2 }

theorem SerialError.mapCause_id (error : SerialError) : error.mapCause id = error := by
  cases error with
  | createDirectory path cause => rfl
  | lockTimeout path timeout => rfl
  | lock path cause => rfl
  | read path cause => rfl
  | parse path => rfl
  | write path cause => rfl

/-- An error in which the words of the system about the serial directory are changed. -/
def PluginError.mapCause (f : SystemError → SystemError) : PluginError → PluginError
  | .serial cause => .serial (cause.mapCause f)
  | .rejected message => .rejected message
  | .fault cause => .fault cause
  | .transport cause => .transport cause

/-- An error in which the words of the system about the serial directory are changed. -/
def ZoneError.Cause.mapCause (f : SystemError → SystemError) : ZoneError.Cause → ZoneError.Cause
  | .normalize identifier cause => .normalize identifier (cause.mapCause f)
  | cause => cause

/-- An error in which the words of the system about the serial directory are changed. -/
def ZoneError.mapCause (f : SystemError → SystemError) (error : ZoneError) : ZoneError :=
  { error with cause := error.cause.mapCause f }

theorem PluginError.mapCause_id (error : PluginError) : error.mapCause id = error := by
  cases error with
  | serial cause => exact congrArg serial cause.mapCause_id
  | rejected message => rfl
  | fault cause => rfl
  | transport cause => rfl

/-- Nothing is changed if the words are left as they are. -/
theorem ZoneError.mapCause_id (error : ZoneError) : error.mapCause id = error := by
  rcases error with ⟨zone, cause⟩
  cases cause with
  | normalize identifier cause =>
      exact congrArg (fun cause => ZoneError.mk zone (.normalize identifier cause))
        cause.mapCause_id
  | missingConfig => rfl
  | invalidConfig cause => rfl
  | noPlugin identifier type => rfl
  | configure plugin cause => rfl
  | validate plugin cause => rfl
  | render identifier cause => rfl
  | reverse cause => rfl
  | write path cause => rfl

namespace Builtin

variable {timeout : Duration} {defaults : Option Config} {start host other : Host}
  {config : Config} {name identifier : String} {zone : Zone} {record : Record}
  {plugin : Plugin Host}

/-! ### The stages -/

theorem normalizeZone_eq
    (h : (engine timeout defaults start).resolveConfig zone.config = .ok config) (name : String)
    (host : Host) :
    let records := (engine timeout defaults start).normalizeRecords config name
      zone.records.entries host
    (engine timeout defaults start).normalizeZone name zone host
      = (((records.1.bind fun records => (checkZone name ⟨some config, records, zone.ttl⟩).map
          fun _ => ⟨some config, records, zone.ttl⟩)).mapError (ZoneError.mk name), records.2) := by
  have hconfigure : Engine.configureEach config (engine timeout defaults start).registry.plugins
      host = (.ok (), host) := configureEach_plugins timeout config host
  have hvalidate : ∀ zone host, Engine.validateEach name zone
      (engine timeout defaults start).registry.plugins host = (checkZone name zone, host) :=
    validateEach_eq timeout name
  dsimp only
  rcases hr : (engine timeout defaults start).normalizeRecords config name zone.records.entries host
    with ⟨result, after⟩
  cases result with
  | error cause =>
      simp only [Engine.normalizeZone, Engine.normalizeInPlace, h, Engine.normalizeUnder,
        hconfigure, hr]
      rfl
  | ok records =>
      simp only [Engine.normalizeZone, Engine.normalizeInPlace, h, Engine.normalizeUnder,
        hconfigure, hr, hvalidate, Except.bind]
      cases checkZone name ⟨some config, records, zone.ttl⟩ with
      | error cause => rfl
      | ok _ => rfl

/-! ### Calls for the zone -/

/-- A start of authority that is in order is given a serial number, if one call for the zone
    gives one out. -/
theorem normalizeAuthority_of_check {soa : Soa} (hg : config.generateSerial = true)
    (hc : checkAuthority true (record.withDefaultName identifier) = .ok soa) (host : Host) :
    normalizeAuthority timeout config name identifier record host
      = (((Serial.next host.store host.today timeout config.serialDirectory name).1.mapError
          PluginError.serial).map fun serial =>
            { record.withDefaultName identifier with
              data := .multi (soa.withSerial serial).toValues },
        host.called timeout config.serialDirectory name) := by
  rcases hn : Serial.next host.store host.today timeout config.serialDirectory name
    with ⟨result, store⟩
  have hcalled : host.called timeout config.serialDirectory name
      = { host.tick with store := store } := by
    rw [Host.called, hn]
  rw [hcalled]
  cases result with
  | error cause => simp only [normalizeAuthority, hg, hc, hn, if_true, Except.mapError, Except.map]
  | ok serial => simp only [normalizeAuthority, hg, hc, hn, if_true, Except.mapError, Except.map]

/-- Normalizing a record reads the host only in a call for the zone, and leaves what the call
    leaves. -/
inductive Asks (plugin : Plugin Host) (timeout : Duration) (config : Config)
    (name identifier : String) (record : Record) : Prop where
  /-- The host is left alone, and the result is the same on every host. -/
  | never (result : Except PluginError Record)
    (h : ∀ host, plugin.normalize config name identifier record host = (result, host))
  /-- One call is made, and the result depends on what it gives out. -/
  | once (hg : config.generateSerial = true) (numbered : String → Record)
    (h : ∀ host, plugin.normalize config name identifier record host
      = (((Serial.next host.store host.today timeout config.serialDirectory name).1.mapError
          PluginError.serial).map numbered, host.called timeout config.serialDirectory name))

theorem asks_stateless {version : String} {type : RecordType}
    {normalize : String → Record → Except Fault Record}
    {validateZone : String → Zone → Except PluginError Unit} :
    Asks (.stateless version type normalize validateZone) timeout config name identifier
      record := by
  cases hn : normalize identifier record with
  | error fault =>
      exact .never (.error (.fault fault)) fun host => by simp only [Plugin.stateless, hn]
  | ok normalized =>
      exact .never (.ok normalized) fun host => by simp only [Plugin.stateless, hn]

theorem asks_authority :
    Asks (authority timeout) timeout config name identifier record := by
  cases hc : checkAuthority config.generateSerial (record.withDefaultName identifier) with
  | error fault =>
      exact .never (.error (.fault fault)) fun host => by
        simp only [authority, normalizeAuthority, hc]
  | ok soa =>
      cases hg : config.generateSerial with
      | false =>
          rw [hg] at hc
          refine .never (.ok { record.withDefaultName identifier with data := .multi soa.toValues })
            fun host => ?_
          simp only [authority, normalizeAuthority, hc, hg, Bool.false_eq_true, if_false]
      | true =>
          rw [hg] at hc
          exact .once hg _ fun host => normalizeAuthority_of_check hg hc host

/-- Every builtin plugin normalizes like that. -/
theorem asks_of_lookup (hl : (registry timeout).lookup record.type = some plugin) :
    Asks plugin timeout config name identifier record := by
  rcases lookup_cases hl with ⟨-, rfl⟩ | ⟨-, rfl⟩ | ⟨-, rfl⟩ | ⟨-, rfl⟩ | ⟨-, rfl⟩
  · exact asks_stateless
  · exact asks_stateless
  · exact asks_stateless
  · exact asks_stateless
  · exact asks_authority

/-! ### What calls keep -/

section Invariant

variable {motive : Host → Prop}

theorem Asks.invariant (hasks : Asks plugin timeout config name identifier record)
    (hstep : config.generateSerial = true → ∀ host, motive host →
      motive (host.called timeout config.serialDirectory name)) (h : motive host) :
    motive (plugin.normalize config name identifier record host).2 := by
  cases hasks with
  | never result hsame =>
      rw [hsame]
      exact h
  | once hg numbered hcall =>
      rw [hcall]
      exact hstep hg host h

/-- What calls for the zone keep, normalizing its records keeps. -/
theorem normalizeRecords_invariant {entries : List (String × Record)}
    (hstep : config.generateSerial = true → ∀ host, motive host →
      motive (host.called timeout config.serialDirectory name)) (h : motive host) :
    motive ((engine timeout defaults start).normalizeRecords config name entries host).2 := by
  induction entries generalizing host with
  | nil => exact h
  | cons head rest ih =>
      rcases head with ⟨key, source⟩
      cases hl : (engine timeout defaults start).registry.lookup source.type with
      | none =>
          rw [Engine.normalizeRecords_cons_of_none hl]
          exact h
      | some plugin =>
          have hasks : Asks plugin timeout config name key source := asks_of_lookup hl
          have hafter := hasks.invariant hstep h
          rcases hn : plugin.normalize config name key source host with ⟨result, between⟩
          rw [hn] at hafter
          cases result with
          | error cause =>
              rw [Engine.normalizeRecords_cons_of_error hl hn]
              exact hafter
          | ok normalized =>
              rw [Engine.normalizeRecords_cons_of_ok hl hn]
              exact ih hafter

/-- What calls for the zone keep, normalizing it keeps. -/
theorem normalizeZone_invariant
    (hstep : ∀ config, (engine timeout defaults start).resolveConfig zone.config = .ok config →
      config.generateSerial = true → ∀ host, motive host →
      motive (host.called timeout config.serialDirectory name)) (h : motive host) :
    motive ((engine timeout defaults start).normalizeZone name zone host).2 := by
  cases hconfig : (engine timeout defaults start).resolveConfig zone.config with
  | error cause =>
      simp only [Engine.normalizeZone, Engine.normalizeInPlace, hconfig]
      exact h
  | ok config =>
      rw [normalizeZone_eq hconfig]
      exact normalizeRecords_invariant (hstep config hconfig) h

end Invariant

/-! ### Two hosts -/

theorem map_mapError {ε δ α β : Type} (result : Except ε α) (g : α → β) (f : ε → δ) :
    (result.map g).mapError f = (result.mapError f).map g := by
  cases result with
  | error error => rfl
  | ok value => rfl

/-- Two hosts on which it stays the same day and a zone is given the same serial numbers. -/
structure IsAlike (origin : Store) (directory : Path) (zone : String)
    (host other : Host) : Prop where
  today : host.today = other.today
  clock : host.HasFixedClock
  otherClock : other.HasFixedClock
  store : Serial.IsAlike origin directory zone host.store other.store

namespace IsAlike

variable {origin : Store} {directory : Path} {f : SystemError → SystemError} {called : String}

theorem refl (h : Serial.IsOrderly host.store directory) (hclock : host.HasFixedClock)
    (name : String) : IsAlike host.store directory name host host :=
  ⟨rfl, hclock, hclock, h.isAlike name⟩

theorem symm (h : IsAlike origin directory name host other) :
    IsAlike origin directory name other host :=
  ⟨h.today.symm, h.otherClock, h.clock, h.store.symm⟩

theorem called_other (h : IsAlike origin directory name host other) (hc : '/' ∉ called.toList)
    (hne : called ≠ name) (timeout : Duration) :
    IsAlike origin directory name (host.called timeout directory called) other :=
  ⟨h.clock.today_tick.trans h.today, h.clock.tick, h.otherClock, h.store.next_other hc hne _ _⟩

/-- Calls that give the same but for the words of the system make the same record or give the same
    error, but for these words. -/
theorem mapError_numbered {result result' : Except SerialError String}
    (h : result.mapError (SerialError.mapCause f) = result'.mapError (SerialError.mapCause f))
    (numbered : String → Record) :
    ((result.mapError PluginError.serial).map numbered).mapError (PluginError.mapCause f)
      = ((result'.mapError PluginError.serial).map numbered).mapError
        (PluginError.mapCause f) := by
  have hswap : ∀ result : Except SerialError String,
      ((result.mapError PluginError.serial).map numbered).mapError (PluginError.mapCause f)
        = ((result.mapError (SerialError.mapCause f)).mapError PluginError.serial).map
          numbered := by
    intro result
    cases result with
    | error cause => rfl
    | ok serial => rfl
  rw [hswap, hswap, h]

/-- A record is normalized the same way on both. -/
theorem normalize (h : IsAlike origin directory name host other)
    (hl : (registry timeout).lookup record.type = some plugin) (hz : '/' ∉ name.toList)
    (hf : Serial.Overlooks f origin directory)
    (hd : config.generateSerial = true → config.serialDirectory = directory) :
    (plugin.normalize config name identifier record host).1.mapError (PluginError.mapCause f)
        = (plugin.normalize config name identifier record other).1.mapError (PluginError.mapCause f)
      ∧ IsAlike origin directory name (plugin.normalize config name identifier record host).2
        (plugin.normalize config name identifier record other).2 := by
  cases asks_of_lookup hl with
  | never result hsame =>
      rw [hsame, hsame]
      exact ⟨rfl, h⟩
  | once hg numbered hcall =>
      rw [hcall, hcall, hd hg, ← h.today]
      rcases h.store.next hz hf host.today timeout with ⟨hresult, hafter⟩
      have htoday : host.tick.today = other.tick.today :=
        h.clock.today_tick.trans (h.today.trans h.otherClock.today_tick.symm)
      refine ⟨mapError_numbered hresult numbered, htoday, h.clock.tick, h.otherClock.tick, ?_⟩
      rw [Host.called, Host.called, ← h.today]
      exact hafter

/-- Records are normalized the same way on both. -/
theorem normalizeRecords {entries : List (String × Record)}
    (h : IsAlike origin directory name host other) (hz : '/' ∉ name.toList)
    (hf : Serial.Overlooks f origin directory)
    (hd : config.generateSerial = true → config.serialDirectory = directory) :
    ((engine timeout defaults start).normalizeRecords config name entries host).1.mapError
          (ZoneError.Cause.mapCause f)
        = ((engine timeout defaults start).normalizeRecords config name entries other).1.mapError
          (ZoneError.Cause.mapCause f)
      ∧ IsAlike origin directory name
        ((engine timeout defaults start).normalizeRecords config name entries host).2
        ((engine timeout defaults start).normalizeRecords config name entries other).2 := by
  induction entries generalizing host other with
  | nil => exact ⟨rfl, h⟩
  | cons head rest ih =>
      rcases head with ⟨key, source⟩
      cases hl : (engine timeout defaults start).registry.lookup source.type with
      | none =>
          rw [Engine.normalizeRecords_cons_of_none hl, Engine.normalizeRecords_cons_of_none hl]
          exact ⟨rfl, h⟩
      | some plugin =>
          have hfirst : (plugin.normalize config name key source host).1.mapError
                (PluginError.mapCause f)
              = (plugin.normalize config name key source other).1.mapError (PluginError.mapCause f)
            ∧ IsAlike origin directory name (plugin.normalize config name key source host).2
              (plugin.normalize config name key source other).2 := h.normalize hl hz hf hd
          rcases hn : plugin.normalize config name key source host with ⟨result, between⟩
          rcases hn' : plugin.normalize config name key source other with ⟨result', between'⟩
          rw [hn, hn'] at hfirst
          rcases hfirst with ⟨hresult, hbetween⟩
          -- The first records both pass, and are then the same, or both fail.
          cases result with
          | error cause =>
              cases result' with
              | ok normalized => cases hresult
              | error cause' =>
                  rw [Engine.normalizeRecords_cons_of_error hl hn,
                    Engine.normalizeRecords_cons_of_error hl hn']
                  refine ⟨?_, hbetween⟩
                  have hcause : cause.mapCause f = cause'.mapCause f := Except.error.inj hresult
                  simp only [Except.mapError, ZoneError.Cause.mapCause, hcause]
          | ok normalized =>
              cases result' with
              | error cause => cases hresult
              | ok normalized' =>
                  cases hresult
                  rw [Engine.normalizeRecords_cons_of_ok hl hn,
                    Engine.normalizeRecords_cons_of_ok hl hn', map_mapError, map_mapError,
                    (ih hbetween).1]
                  exact ⟨rfl, (ih hbetween).2⟩

/-- A zone is normalized the same way on both: it comes out the same or is refused for the same
    reason, but for the words of the system. -/
theorem normalizeZone (h : IsAlike origin directory name host other) (hz : '/' ∉ name.toList)
    (hf : Serial.Overlooks f origin directory)
    (hd : ∀ config, (engine timeout defaults start).resolveConfig zone.config = .ok config →
      config.generateSerial = true → config.serialDirectory = directory) :
    ((engine timeout defaults start).normalizeZone name zone host).1.mapError (ZoneError.mapCause f)
        = ((engine timeout defaults start).normalizeZone name zone other).1.mapError
          (ZoneError.mapCause f)
      ∧ IsAlike origin directory name
        ((engine timeout defaults start).normalizeZone name zone host).2
        ((engine timeout defaults start).normalizeZone name zone other).2 := by
  cases hconfig : (engine timeout defaults start).resolveConfig zone.config with
  | error cause =>
      simp only [Engine.normalizeZone, Engine.normalizeInPlace, hconfig]
      exact ⟨trivial, h⟩
  | ok config =>
      rw [normalizeZone_eq hconfig, normalizeZone_eq hconfig]
      refine ⟨?_, (h.normalizeRecords hz hf (hd config hconfig)).2⟩
      have hresult : ((engine timeout defaults start).normalizeRecords config name
            zone.records.entries host).1.mapError (ZoneError.Cause.mapCause f)
          = ((engine timeout defaults start).normalizeRecords config name
            zone.records.entries other).1.mapError (ZoneError.Cause.mapCause f) :=
        (h.normalizeRecords hz hf (hd config hconfig)).1
      -- The checks that follow see the same records or none.
      generalize ((engine timeout defaults start).normalizeRecords config name zone.records.entries
        host).1 = result at hresult ⊢
      generalize ((engine timeout defaults start).normalizeRecords config name zone.records.entries
        other).1 = result' at hresult ⊢
      cases result with
      | error cause =>
          cases result' with
          | ok records => cases hresult
          | error cause' =>
              have hcause : cause.mapCause f = cause'.mapCause f := Except.error.inj hresult
              simp only [Except.bind, Except.mapError, ZoneError.mapCause, hcause]
      | ok records =>
          cases result' with
          | error cause => cases hresult
          | ok records' =>
              cases hresult
              rfl

/-- Normalizing another zone, on one of the two only, keeps them alike. -/
theorem normalizeZone_other (h : IsAlike origin directory name host other)
    (hc : '/' ∉ called.toList) (hne : called ≠ name)
    (hd : ∀ config, (engine timeout defaults start).resolveConfig zone.config = .ok config →
      config.generateSerial = true → config.serialDirectory = directory) :
    IsAlike origin directory name
      ((engine timeout defaults start).normalizeZone called zone host).2 other := by
  refine normalizeZone_invariant (motive := fun host => IsAlike origin directory name host other)
    (fun config hconfig hg host hhost => ?_) h
  rw [hd config hconfig hg]
  exact hhost.called_other hc hne timeout

end IsAlike

/-! ### One directory for all zones -/

/-- The zones have names that can name a file, and those that take their serial numbers from a
    change index have the same directory for it once their configurations are settled. -/
structure SharesDirectory (engine : Engine Host) (directory : Path) (zones : Zones) : Prop where
  named : ∀ name zone, zones.get? name = some zone → '/' ∉ name.toList
  settled : ∀ name zone, zones.get? name = some zone → ∀ config,
    engine.resolveConfig zone.config = .ok config → config.generateSerial = true →
      config.serialDirectory = directory

variable {zones : Zones} {directory : Path}

theorem SharesDirectory.of_mem {engine : Engine Host} (h : SharesDirectory engine directory zones)
    {e : String × Zone} (he : e ∈ zones.entries) :
    '/' ∉ e.1.toList ∧ ∀ config, engine.resolveConfig e.2.config = .ok config →
      config.generateSerial = true → config.serialDirectory = directory := by
  have hz := Table.get?_eq_some_iff.mpr he
  exact ⟨h.named e.1 e.2 hz, h.settled e.1 e.2 hz⟩

/-- The zones that are derived have names that can name a file, and share the directory of the zones
    that they are derived from. -/
theorem sharesDirectory_derivation
    (h : SharesDirectory (engine timeout defaults start) directory zones) :
    SharesDirectory (engine timeout defaults start) directory
      ((engine timeout defaults start).derivation zones host).zones := by
  constructor
  · intro name zone hz hslash
    rcases Derivation.contents_ofZones hz with ⟨-, -, -, -, -, ⟨address, rfl⟩, -⟩
    rcases Name.eq_dot_or_isLabelChar (Name.isValid_reverseZone address) hslash with hdot | hlabel
    · cases hdot
    · cases hlabel
  · intro name zone hz config hconfig hserial
    rcases Derivation.contents_ofZones hz with ⟨source, origin, -, -, hsource, -, hsame, -⟩
    -- The configuration is the settled one of a zone that was normalized.
    rcases Engine.passGiven_get?_iff.mp hsource with ⟨given, hm⟩
    rcases Engine.result_of_mem_answers hm with ⟨before, hb⟩
    have hnormalized : (engine timeout defaults start).normalizeZone source given before
      = (.ok origin, ((engine timeout defaults start).normalizeZone source given before).2) :=
      Prod.ext hb rfl
    rcases Engine.normalizeZone_ok hnormalized with ⟨settled, hsettled, horigin, -⟩
    rw [hsame, horigin, resolveConfig_settled hsettled] at hconfig
    cases hconfig
    exact h.settled source given (Engine.get?_of_mem_answers hm) config hsettled hserial

end Builtin

end DnsZones
