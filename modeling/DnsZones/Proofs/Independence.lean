import DnsZones.Proofs.Builtin.Allocation
import DnsZones.Proofs.Soundness
import DnsZones.Proofs.Turns

/-!
# Independence of Zones

Zones do not influence each other.

All zones of a run share one file store, and those that take their serial numbers
from a change index share a directory in it. Still a zone is given the same serial
number, and fails for the same reasons, whatever other zones there are, whether
they fail, and where they sort. A run on fewer zones therefore says the same of
those that are left, as long as those that are gone were not normalized anyway:
deriving looks at nothing but what was normalized.

Only the system's own words can differ, and only where the shared directory cannot
be made. The first zone that tries can make some of the directories on the way, and
the second then finds them in place.

## Main definitions

* `Builtin.SaySame`: Two lists of errors say the same of a zone.

## Theorems

* `Builtin.normalize_alike`: Normalizing on two hosts that are alike to a zone.
* `Builtin.independent`: The independence of zones.
-/

namespace DnsZones

namespace Builtin

/-- Two lists of errors, of runs that began on the same store, say the same of a zone, but for the
    words of the system where the serial directory cannot be made. If a second attempt at the
    directory fails in the words of the first, then so are these. -/
structure SaySame (store : Store) (directory : Path) (name : String)
    (errors others : List ZoneError) : Prop where
  reasons : (ZoneError.about name errors).map (ZoneError.mapCause fun _ => .notFound)
    = (ZoneError.about name others).map (ZoneError.mapCause fun _ => .notFound)
  words : (Serial.ensureDirectory (Serial.prepared store directory) directory).1
      = (Serial.ensureDirectory store directory).1 →
    ZoneError.about name errors = ZoneError.about name others

variable {timeout : Duration} {defaults : Option Config} {start host other : Host}
  {zones others : Zones} {name : String} {directory : Path} {origin : Store}
  {f : SystemError → SystemError}

/-! ### One stage -/

/-- Errors are the same in both ways if they are under every change of words that overlooks the
    difference between a first failure and a later one. -/
theorem saySame_of_forall {store : Store} {errors others : List ZoneError}
    (h : ∀ f, Serial.Overlooks f store directory →
      (ZoneError.about name errors).map (ZoneError.mapCause f)
        = (ZoneError.about name others).map (ZoneError.mapCause f)) :
    SaySame store directory name errors others := by
  refine ⟨h _ fun _ _ _ _ => rfl, fun hsame => ?_⟩
  have hid : Serial.Overlooks id store directory := fun first later hfirst hlater => by
    rw [hsame, hfirst] at hlater
    cases hlater
    rfl
  have hmap : ∀ errors : List ZoneError, errors.map (ZoneError.mapCause id) = errors :=
    fun errors => (List.map_congr_left fun error _ => error.mapCause_id).trans (List.map_id errors)
  have hall := h id hid
  rwa [hmap, hmap] at hall

theorem toOption_of_mapError {α : Type} {result result' : Except ZoneError α}
    (h : result.mapError (ZoneError.mapCause f) = result'.mapError (ZoneError.mapCause f)) :
    result.toOption = result'.toOption := by
  cases result with
  | error error =>
      cases result' with
      | error error' => rfl
      | ok value => cases h
  | ok value =>
      cases result' with
      | error error => cases h
      | ok value' =>
          cases h
          rfl

theorem errors_of_mapError {α : Type} {zone : Zone} {result result' : Except ZoneError α}
    (h : result.mapError (ZoneError.mapCause f) = result'.mapError (ZoneError.mapCause f)) :
    (Answer.errors ⟨name, zone, result⟩).map (ZoneError.mapCause f)
      = (Answer.errors ⟨name, zone, result'⟩).map (ZoneError.mapCause f) := by
  cases result with
  | error error =>
      cases result' with
      | error error' =>
          have herror : error.mapCause f = error'.mapCause f := Except.error.inj h
          simp only [Answer.errors, List.map_cons, List.map_nil, herror]
      | ok value => cases h
  | ok value =>
      cases result' with
      | error error => cases h
      | ok value' => rfl

/-- Zones are normalized on two hosts that are alike to one of them, with the same zone under its
    name: what comes out under the name is the same, and what is reported, and the hosts are alike
    again. -/
theorem normalize_alike (hname : zones.get? name = others.get? name)
    (hzones : SharesDirectory (engine timeout defaults start) directory zones)
    (hothers : SharesDirectory (engine timeout defaults start) directory others)
    (hf : Serial.Overlooks f origin directory) (h : IsAlike origin directory name host other) :
    ((engine timeout defaults start).normalize zones host).1.zones.get? name
        = ((engine timeout defaults start).normalize others other).1.zones.get? name
      ∧ (ZoneError.about name ((engine timeout defaults start).normalize zones host).1.errors).map
          (ZoneError.mapCause f)
        = (ZoneError.about name
            ((engine timeout defaults start).normalize others other).1.errors).map
          (ZoneError.mapCause f)
      ∧ IsAlike origin directory name ((engine timeout defaults start).normalize zones host).2
        ((engine timeout defaults start).normalize others other).2 := by
  have hstage : IsAlike origin directory name
        (Engine.stateAfter (engine timeout defaults start).normalizeZone zones.entries host)
        (Engine.stateAfter (engine timeout defaults start).normalizeZone others.entries other)
      ∧ ∀ zone result result',
        ⟨name, zone, result⟩
          ∈ Engine.answers (engine timeout defaults start).normalizeZone zones.entries host →
        ⟨name, zone, result'⟩
          ∈ Engine.answers (engine timeout defaults start).normalizeZone others.entries other →
        result.mapError (ZoneError.mapCause f) = result'.mapError (ZoneError.mapCause f) := by
    refine Engine.answers_related (R := IsAlike origin directory name)
      (g := fun result => result.mapError (ZoneError.mapCause f)) hname ?_ ?_ ?_ h
    · intro e he hne state other h
      rcases hzones.of_mem he with ⟨hz, hd⟩
      exact h.normalizeZone_other hz hne hd
    · intro e he hne state other h
      rcases hothers.of_mem he with ⟨hz, hd⟩
      exact (h.symm.normalizeZone_other hz hne hd).symm
    · intro zone hz state other h
      exact h.normalizeZone (hzones.named _ _ hz) hf (hzones.settled _ _ hz)
  rcases hstage with ⟨hafter, hanswers⟩
  rw [Engine.normalize_state, Engine.normalize_state]
  cases hzone : zones.get? name with
  | none =>
      -- Where nothing is given under the name, nothing is said of it.
      rcases (engine timeout defaults start).normalize_of_absent host hzone with ⟨hkept, habout⟩
      rcases (engine timeout defaults start).normalize_of_absent other (hname.symm.trans hzone)
        with ⟨hkept', habout'⟩
      exact ⟨hkept.trans hkept'.symm, by rw [habout, habout'], hafter⟩
  | some zone =>
      have hasked : ∃ result, ⟨name, zone, result⟩
          ∈ Engine.answers (engine timeout defaults start).normalizeZone zones.entries host :=
        Engine.exists_mem_answers hzone
      have hasked' : ∃ result, ⟨name, zone, result⟩
          ∈ Engine.answers (engine timeout defaults start).normalizeZone others.entries other :=
        Engine.exists_mem_answers (hname.symm.trans hzone)
      rcases hasked with ⟨result, hm⟩
      rcases hasked' with ⟨result', hm'⟩
      have hresult := hanswers zone result result' hm hm'
      rw [Engine.get?_normalize hm, Engine.get?_normalize hm', Engine.about_normalize hm,
        Engine.about_normalize hm']
      refine ⟨?_, ?_, hafter⟩
      · rw [toOption_of_mapError hresult]
      · exact errors_of_mapError hresult

/-! ### Both stages -/

/-- Some zones that are not normalized are left out. -/
def LeavesOut (engine : Engine Host) (host : Host) (zones fewer : Zones) : Prop :=
  ∀ name, fewer.get? name = zones.get? name
    ∨ fewer.get? name = none ∧ (engine.normalize zones host).1.zones.get? name = none

section Fewer

variable {fewer : Zones}

theorem SharesDirectory.of_leavesOut {engine : Engine Host}
    (h : SharesDirectory engine directory zones) (hfewer : LeavesOut engine host zones fewer) :
    SharesDirectory engine directory fewer := by
  have hsub : ∀ name zone, fewer.get? name = some zone → zones.get? name = some zone := by
    intro name zone hz
    rcases hfewer name with hsame | ⟨hnone, -⟩
    · exact hsame.symm.trans hz
    · rw [hnone] at hz
      cases hz
  exact ⟨fun name zone hz => h.named name zone (hsub name zone hz),
    fun name zone hz => h.settled name zone (hsub name zone hz)⟩

/-- Leaving out zones that are not normalized changes nothing for those that are. -/
theorem passGiven_of_leavesOut (hstore : Serial.IsOrderly host.store directory)
    (hclock : host.HasFixedClock)
    (hzones : SharesDirectory (engine timeout defaults host) directory zones)
    (hfewer : LeavesOut (engine timeout defaults host) host zones fewer) :
    ((engine timeout defaults host).passGiven fewer host).1.zones
      = ((engine timeout defaults host).passGiven zones host).1.zones := by
  refine Table.ext_get? fun name => ?_
  rcases hfewer name with hsame | ⟨hnone, hfailed⟩
  · exact (normalize_alike (f := fun _ => .notFound) hsame (hzones.of_leavesOut hfewer) hzones
      (fun _ _ _ _ => rfl) (.refl hstore hclock name)).1
  · exact (Engine.normalize_of_absent _ _ hnone).1.trans hfailed.symm

/-- Both stages of a run on fewer zones give the same as those of a run on all, for every name
    that is not one of those left out. -/
theorem passes_of_leavesOut (hstore : Serial.IsOrderly host.store directory)
    (hclock : host.HasFixedClock)
    (hzones : SharesDirectory (engine timeout defaults host) directory zones)
    (hfewer : LeavesOut (engine timeout defaults host) host zones fewer)
    (hf : Serial.Overlooks f host.store directory) (hname : fewer.get? name = zones.get? name) :
    ((engine timeout defaults host).passDerived fewer host).1.zones.get? name
        = ((engine timeout defaults host).passDerived zones host).1.zones.get? name
      ∧ (ZoneError.about name ((engine timeout defaults host).generate fewer host).1.errors).map
          (ZoneError.mapCause f)
        = (ZoneError.about name ((engine timeout defaults host).generate zones host).1.errors).map
          (ZoneError.mapCause f) := by
  have hderivation : (engine timeout defaults host).derivation fewer host
      = (engine timeout defaults host).derivation zones host :=
    congrArg Derivation.ofZones (passGiven_of_leavesOut hstore hclock hzones hfewer)
  rcases normalize_alike hname (hzones.of_leavesOut hfewer) hzones hf (.refl hstore hclock name)
    with ⟨-, hgiven, halike⟩
  -- The derived zones are the same, and are normalized on hosts that are alike to the name.
  have hderived : SharesDirectory (engine timeout defaults host) directory
      ((engine timeout defaults host).derivation zones host).zones :=
    sharesDirectory_derivation hzones
  rcases normalize_alike rfl hderived hderived hf halike with ⟨hkept, herrors, -⟩
  rw [generate_errors_eq, generate_errors_eq, Engine.passDerived, Engine.passDerived, hderivation]
  refine ⟨hkept, ?_⟩
  simp only [ZoneError.about_append, List.map_append]
  rw [Engine.passGiven, Engine.passGiven, hgiven, herrors]

theorem texts_of_leavesOut (hstore : Serial.IsOrderly host.store directory)
    (hclock : host.HasFixedClock)
    (hzones : SharesDirectory (engine timeout defaults host) directory zones)
    (hfewer : LeavesOut (engine timeout defaults host) host zones fewer)
    (hname : fewer.get? name = zones.get? name) :
    ((engine timeout defaults host).generate fewer host).1.texts.get? name
      = ((engine timeout defaults host).generate zones host).1.texts.get? name := by
  have hgiven := passGiven_of_leavesOut hstore hclock hzones hfewer
  have hderived := (passes_of_leavesOut (f := fun _ => .notFound) hstore hclock hzones hfewer
    (fun _ _ _ _ => rfl) hname).1
  -- The same zone reaches the last stage, and its text depends on nothing else.
  refine Option.ext fun text => ?_
  rw [generate_texts_iff, generate_texts_iff]
  simp only [Engine.Survives, hgiven, hderived]

end Fewer

/-- Zones do not influence each other, as long as it stays the same day. Among any two families of
    zones that have the same zone under a name, the zone comes out the same or is refused for the
    same reason. And leaving out zones that are not normalized changes neither the text nor the
    errors of any other name. -/
theorem independent (timeout : Duration) (defaults : Option Config) (host : Host)
    (directory : Path) (zones others : Zones) (hstore : Serial.IsOrderly host.store directory)
    (hclock : host.HasFixedClock)
    (hzones : SharesDirectory (engine timeout defaults host) directory zones)
    (hothers : SharesDirectory (engine timeout defaults host) directory others) :
    (∀ name, zones.get? name = others.get? name →
      ((engine timeout defaults host).normalize zones host).1.zones.get? name
          = ((engine timeout defaults host).normalize others host).1.zones.get? name
        ∧ SaySame host.store directory name
          ((engine timeout defaults host).normalize zones host).1.errors
          ((engine timeout defaults host).normalize others host).1.errors)
    ∧ ∀ fewer, LeavesOut (engine timeout defaults host) host zones fewer →
      ∀ name, fewer.get? name = zones.get? name →
        ((engine timeout defaults host).generate fewer host).1.texts.get? name
            = ((engine timeout defaults host).generate zones host).1.texts.get? name
          ∧ SaySame host.store directory name
            ((engine timeout defaults host).generate fewer host).1.errors
            ((engine timeout defaults host).generate zones host).1.errors := by
  constructor
  · intro name hname
    refine ⟨?_, saySame_of_forall fun f hf => ?_⟩
    · exact (normalize_alike (f := fun _ => .notFound) hname hzones hothers (fun _ _ _ _ => rfl)
        (.refl hstore hclock name)).1
    · exact (normalize_alike hname hzones hothers hf (.refl hstore hclock name)).2.1
  · intro fewer hfewer name hname
    exact ⟨texts_of_leavesOut hstore hclock hzones hfewer hname,
      saySame_of_forall fun f hf => (passes_of_leavesOut hstore hclock hzones hfewer hf hname).2⟩

end Builtin

/-! ### A zone and its neighbour -/

namespace Neighbours

open Builtin

/-- A start of authority that is to be given its serial number. -/
def authority : Record := { Record.ofValues .soa [⟨"ns1.example.com.", none⟩,
    ⟨"hostmaster@example.com", none⟩, ⟨"3600", none⟩, ⟨"600", none⟩, ⟨"86400", none⟩,
    ⟨"300", none⟩] with name := "@" }

/-- A zone that takes its serial numbers from a change index in a directory. -/
def zone (directory : String) : Zone where
  config := some { generateSerial := true, serialDirectory := ⟨directory⟩ }
  records := Table.empty.insert "@" authority

/-- Another one, which is refused for a canonical name that leads nowhere, but only after it was
    given a serial number. -/
def dangling (directory : String) : Zone :=
  (zone directory).insert "alias" (.ofValue .cname ⟨"nowhere", none⟩)

def alone (directory : String) : Zones := Table.empty.insert "second." (zone directory)

def both (directory : String) : Zones := (alone directory).insert "first." (dangling directory)

variable {host : Host} {directory : String} {settled : Path}

theorem sharesDirectory_alone
    (h : (engine Serial.defaultTimeout none host).resolveConfig (zone directory).config
      = .ok { generateSerial := true, serialDirectory := settled }) :
    SharesDirectory (engine Serial.defaultTimeout none host) settled
      (alone directory) := by
  refine ⟨Table.forall_insert (fun _ _ hz => nomatch hz) (by decide),
    Table.forall_insert (fun _ _ hz => nomatch hz) fun config hconfig _ => ?_⟩
  rw [h] at hconfig
  cases hconfig
  rfl

theorem sharesDirectory_both
    (h : (engine Serial.defaultTimeout none host).resolveConfig (zone directory).config
      = .ok { generateSerial := true, serialDirectory := settled }) :
    SharesDirectory (engine Serial.defaultTimeout none host) settled
      (both directory) := by
  have halone := sharesDirectory_alone h
  refine ⟨Table.forall_insert halone.named (by decide),
    Table.forall_insert halone.settled fun config hconfig _ => ?_⟩
  change (engine Serial.defaultTimeout none host).resolveConfig (zone directory).config
    = .ok config at hconfig
  rw [h] at hconfig
  cases hconfig
  rfl

theorem leavesOut_alone :
    LeavesOut (engine Serial.defaultTimeout none {}) {} (both "/") (alone "/") := by
  intro name
  by_cases hn : name = "first."
  · subst hn
    refine Or.inr ⟨rfl, Option.isNone_iff_eq_none.mp ?_⟩
    decide
  · exact Or.inl (Table.get?_insert_of_ne _ _ hn).symm

end Neighbours

/-- A zone has its text whether its neighbour, which is refused, is left out or not. -/
theorem Builtin.independent_neighbours :
    Serial.IsOrderly {} ⟨"/"⟩
      ∧ Host.HasFixedClock {}
      ∧ SharesDirectory (engine Serial.defaultTimeout none {}) ⟨"/"⟩ (Neighbours.both "/")
      ∧ SharesDirectory (engine Serial.defaultTimeout none {}) ⟨"/"⟩ (Neighbours.alone "/")
      ∧ LeavesOut (engine Serial.defaultTimeout none {}) {} (Neighbours.both "/")
        (Neighbours.alone "/")
      ∧ ((engine Serial.defaultTimeout none {}).generate (Neighbours.both "/") {}).1.texts.contains
        "second." = true
      ∧ ((engine Serial.defaultTimeout none {}).generate (Neighbours.alone "/") {}).1.texts.get?
          "second."
        = ((engine Serial.defaultTimeout none {}).generate (Neighbours.both "/") {}).1.texts.get?
          "second." := by
  have hboth : SharesDirectory (engine Serial.defaultTimeout none {}) ⟨"/"⟩ (Neighbours.both "/") :=
    Neighbours.sharesDirectory_both rfl
  have halone : SharesDirectory (engine Serial.defaultTimeout none {}) ⟨"/"⟩
      (Neighbours.alone "/") := Neighbours.sharesDirectory_alone rfl
  have hclock : Host.HasFixedClock {} := List.forall_mem_nil _
  have hindependent := independent Serial.defaultTimeout none {} ⟨"/"⟩ (Neighbours.both "/")
    (Neighbours.alone "/") Serial.isOrderly_root hclock hboth halone
  refine ⟨Serial.isOrderly_root, hclock, hboth, halone, Neighbours.leavesOut_alone, by decide, ?_⟩
  exact (hindependent.2 _ Neighbours.leavesOut_alone "second." rfl).1

namespace Neighbours

/-- A host with one file. -/
def obstructed : Host where
  store := { entries := Table.empty.insert ["f"] (.file { content := ByteArray.empty }) }

theorem isOrderly_obstructed : Serial.IsOrderly obstructed.store ⟨"/a/../f/c"⟩ where
  isAbsolute := by decide
  noLinks := by
    have hnone : (Serial.prepared obstructed.store ⟨"/a/../f/c"⟩).directory ⟨"/a/../f/c"⟩
        = .error .notDirectory := rfl
    intro d hd
    rw [hnone] at hd
    cases hd

/-- What is reported of the second zone on that host. -/
def reports (zones : Zones) : List ZoneError :=
  ZoneError.about "second."
    ((Builtin.engine Serial.defaultTimeout none obstructed).normalize zones obstructed).1.errors

end Neighbours

/-- The words about a directory that cannot be made depend on a neighbour. The way to the directory
    leads up again from one that is missing at first, and then to a file. A zone alone makes the
    missing one and is stopped by the file that should be a directory; where a neighbour has made
    it before, the way ends at that file at once. -/
theorem Builtin.not_independent_words :
    Serial.IsOrderly Neighbours.obstructed.store ⟨"/a/../f/c"⟩
      ∧ Neighbours.obstructed.HasFixedClock
      ∧ SharesDirectory (engine Serial.defaultTimeout none Neighbours.obstructed) ⟨"/a/../f/c"⟩
        (Neighbours.both "a/../f/c")
      ∧ SharesDirectory (engine Serial.defaultTimeout none Neighbours.obstructed) ⟨"/a/../f/c"⟩
        (Neighbours.alone "a/../f/c")
      ∧ (Neighbours.both "a/../f/c").get? "second." = (Neighbours.alone "a/../f/c").get? "second."
      ∧ Neighbours.reports (Neighbours.alone "a/../f/c")
        = [⟨"second.", .normalize "@" (.serial (.createDirectory ⟨"/a/../f/c"⟩ .alreadyThere))⟩]
      ∧ Neighbours.reports (Neighbours.both "a/../f/c")
        = [⟨"second.", .normalize "@" (.serial (.createDirectory ⟨"/a/../f/c"⟩ .notDirectory))⟩]
      ∧ Neighbours.reports (Neighbours.both "a/../f/c")
        ≠ Neighbours.reports (Neighbours.alone "a/../f/c") := by
  have halone : Neighbours.reports (Neighbours.alone "a/../f/c")
      = [⟨"second.", .normalize "@" (.serial (.createDirectory ⟨"/a/../f/c"⟩ .alreadyThere))⟩] := by
    decide
  have hboth : Neighbours.reports (Neighbours.both "a/../f/c")
      = [⟨"second.", .normalize "@" (.serial (.createDirectory ⟨"/a/../f/c"⟩ .notDirectory))⟩] := by
    decide
  refine ⟨Neighbours.isOrderly_obstructed, List.forall_mem_nil _,
    Neighbours.sharesDirectory_both rfl, Neighbours.sharesDirectory_alone rfl, rfl, halone, hboth,
    ?_⟩
  rw [halone, hboth]
  decide

end DnsZones
