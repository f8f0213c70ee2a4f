import DnsZones.Proofs.Builtin.Allocation
import DnsZones.Proofs.Serial.Anywhere

/-!
# Completed Starts of Authority

What normalizing a start of authority makes of its values, and what it does to the
change index.

The values of a start of authority are told apart by their places, and the serial
number stands in the middle. If it is left out the timers move up, so the places
depend on the number of values; in the result every value is in its own place
again. Only two values are not what was given: the mailbox, which is put into the
form of a name, and a serial number that is given out.

Giving out a serial number is the one thing that normalizing does to the host. It
comes last, after everything that can be wrong with the record was found in order.
So a record that is turned down has used no serial number, and one that passes has
used exactly one.

## Main definitions

* `Builtin.IsCompletion`: The values of a start of authority, before and after.

## Theorems

* `Builtin.isCompletion_of_checkAuthority`: What is made of values that are in order.
* `Builtin.normalizeAuthority_exact`: A start of authority is normalized as a whole or not at all.
-/

namespace DnsZones

namespace Builtin

variable {timeout : Duration} {config : Config} {zone identifier : String} {record : Record}
  {host after : Host}

/-- What becomes of the values of a start of authority. A serial number is given out or it is not;
    only one that is given out may be missing before. -/
structure IsCompletion (assigned : Option String) (given completed : List Value) : Prop where
  /-- Nothing but a serial number that is given out was missing. -/
  before : given.length = 7 ∨ given.length = 6 ∧ assigned.isSome = true
  /-- Nothing is missing. -/
  after : completed.length = 7
  /-- The primary name server is as it was. -/
  primary : completed[0]? = given[0]?
  /-- The mailbox is put into the form of a name, and what was noted beside it stays. -/
  email : ∃ email mailbox, given[1]? = some email ∧ Mailbox.encode email.text = .ok mailbox
    ∧ completed[1]? = some { email with text := mailbox }
  /-- A serial number that is not given out is as it was. -/
  kept : assigned = none → completed[2]? = given[2]?
  /-- One that is given out takes over what was noted beside the one in its place. -/
  numbered : ∀ serial, assigned = some serial →
    completed[2]? = some ⟨serial, if given.length = 7 then given[2]?.bind (·.comment) else none⟩
  /-- The last four values are as they were. -/
  timers : completed.drop 3 = given.drop (given.length - 4)

/-- Values that could be told apart by their places are the ones in these places. -/
theorem toValues_of_ofValues? {values : List Value} {soa : Soa}
    (h : Soa.ofValues? values = some soa) : values = soa.toValues := by
  unfold Soa.ofValues? at h
  split at h
  · cases h
    rfl
  · cases h
    rfl
  · cases h

/-- Values in order, all seven of them, are kept but for the mailbox. -/
theorem isCompletion_keep {soa : Soa} {mailbox : String} (hs : soa.serial.isSome = true)
    (hm : Mailbox.encode soa.email.text = .ok mailbox) :
    IsCompletion none soa.toValues
      { soa with email := { soa.email with text := mailbox } }.toValues := by
  rcases soa with ⟨primary, email, serial, refresh, retry, expire, minimum⟩
  rcases Option.isSome_iff_exists.mp hs with ⟨value, rfl⟩
  exact ⟨Or.inl rfl, rfl, rfl, ⟨email, mailbox, rfl, hm, rfl⟩, fun _ => rfl, nofun, rfl⟩

/-- A serial number takes the place of another or comes before the timers. -/
theorem isCompletion_assign {soa : Soa} {mailbox : String}
    (hm : Mailbox.encode soa.email.text = .ok mailbox) (serial : String) :
    IsCompletion (some serial) soa.toValues
      ({ soa with email := { soa.email with text := mailbox } }.withSerial serial).toValues := by
  rcases soa with ⟨primary, email, old, refresh, retry, expire, minimum⟩
  have hemail : ∃ value name, (primary :: email :: (old.toList
        ++ [refresh, retry, expire, minimum]))[1]? = some value
      ∧ Mailbox.encode value.text = .ok name
      ∧ some { email with text := mailbox } = some { value with text := name } :=
    ⟨email, mailbox, rfl, hm, rfl⟩
  cases old with
  | none =>
      exact ⟨Or.inr ⟨rfl, rfl⟩, rfl, rfl, hemail, nofun, fun _ he => by cases he; rfl, rfl⟩
  | some value =>
      exact ⟨Or.inl rfl, rfl, rfl, hemail, nofun, fun _ he => by cases he; rfl, rfl⟩

/-- The values of a start of authority that passes the checks are completed, with a serial number
    that is given out or with their own. -/
theorem isCompletion_of_checkAuthority {generating : Bool} {soa : Soa}
    (h : checkAuthority generating record = .ok soa) :
    ∃ given, record.data = .multi given
      ∧ (generating = false → IsCompletion none given soa.toValues)
      ∧ ∀ serial, IsCompletion (some serial) given (soa.withSerial serial).toValues := by
  rcases checkAuthority_eq_ok_iff.mp h with
    ⟨-, -, given, source, hdata, hgiven, hserial, hcheck⟩
  rcases check_eq_ok_iff.mp hcheck with ⟨-, -, mailbox, hmailbox, rfl⟩
  refine ⟨given, hdata, ?_⟩
  rw [toValues_of_ofValues? hgiven]
  exact ⟨fun hg => isCompletion_keep (hserial hg) hmailbox, isCompletion_assign hmailbox⟩

/-- The default name fills in for a missing one and changes nothing else. -/
theorem withDefaultName_eq (record : Record) (name : String) :
    record.withDefaultName name
      = { record with name := if record.name = "" then name else record.name } := by
  unfold Record.withDefaultName
  by_cases h : record.name = ""
  · rw [if_pos (String.isEmpty_iff.mpr h), if_pos h]
  · rw [if_neg (by rwa [String.isEmpty_iff]), if_neg h]

/-- A start of authority is normalized as a whole or not at all. If it is turned down, or if no
    serial number is to be given out, the host is as it was, unless giving out the number failed.
    If it passes, its values are completed and the rest of the record stays, and a serial number
    that is given out comes from one call for the zone, which has advanced its index by one step.

    The index is the one in the store with the serial directory made; where the directory is there
    already, that is the store itself. That the new index is read in its place needs a well-formed
    store: the directory in which the path of the index starts has to exist. -/
theorem normalizeAuthority_exact {result : Except PluginError Record}
    (h : normalizeAuthority timeout config zone identifier record host = (result, after)) :
    (config.generateSerial = false
        ∨ (∃ error, result = .error error ∧ ∀ cause, error ≠ .serial cause) → after = host)
      ∧ ∀ normalized, result = .ok normalized → ∃ assigned given completed,
        record.data = .multi given
        ∧ normalized = { record with
            name := if record.name = "" then identifier else record.name
            data := .multi completed }
        ∧ IsCompletion assigned given completed
        ∧ (config.generateSerial = false → assigned = none)
        ∧ (config.generateSerial = true → ∃ previous,
          Serial.current (Serial.prepared host.store config.serialDirectory)
            config.serialDirectory zone = .ok previous
          ∧ assigned = some (SerialIndex.advance previous host.today.base).serial
          ∧ after = host.called timeout config.serialDirectory zone
          ∧ (host.store.IsSolid (Store.startOf host.store.workingDirectory
              (Serial.indexPath config.serialDirectory zone)) →
            Serial.current after.store config.serialDirectory zone
              = .ok (some (SerialIndex.advance previous host.today.base)))) := by
  cases hc : checkAuthority config.generateSerial (record.withDefaultName identifier) with
  | error fault =>
      -- Nothing was done before the record was found to be wrong.
      simp only [normalizeAuthority, hc] at h
      cases h
      exact ⟨fun _ => rfl, fun normalized hn => by cases hn⟩
  | ok soa =>
      rcases isCompletion_of_checkAuthority hc with ⟨given, hdata, hkeep, hassign⟩
      rw [data_withDefaultName] at hdata
      cases hg : config.generateSerial with
      | false =>
          rw [hg] at hc
          simp only [normalizeAuthority, hc, hg, Bool.false_eq_true, if_false] at h
          cases h
          refine ⟨fun _ => rfl, fun normalized hn => ?_⟩
          cases hn
          exact ⟨none, given, _, hdata, by rw [withDefaultName_eq], hkeep hg, fun _ => rfl,
            fun hf => absurd hf Bool.false_ne_true⟩
      | true =>
          rw [hg] at hc
          rw [normalizeAuthority_of_check hg hc] at h
          rcases hn : Serial.next host.store host.today timeout config.serialDirectory zone
            with ⟨outcome, store⟩
          rw [hn] at h
          cases outcome with
          | error cause =>
              -- Only the call can have failed now.
              cases h
              refine ⟨?_, fun normalized hn => by cases hn⟩
              rintro (hfalse | ⟨error, herror, hne⟩)
              · cases hfalse
              · cases herror
                exact absurd rfl (hne cause)
          | ok serial =>
              rcases Serial.next_ok hn with ⟨previous, hprevious, rfl, hadvanced⟩
              cases h
              refine ⟨?_, fun normalized hn' => ?_⟩
              · rintro (hfalse | ⟨error, herror, -⟩)
                · cases hfalse
                · cases herror
              · cases hn'
                refine ⟨_, given, _, hdata, by rw [withDefaultName_eq], hassign _,
                  fun hf => absurd hf.symm Bool.false_ne_true, fun _ => ?_⟩
                refine ⟨previous, hprevious, rfl, rfl, fun hs => ?_⟩
                rw [Host.called, hn]
                exact hadvanced hs

end Builtin

namespace Unnumbered

def config : Config where
  generateSerial := true
  serialDirectory := ⟨"/serials"⟩

/-- A start of authority without a name and without a serial number. -/
def record : Record := .ofValues .soa [⟨"ns1.example.com.", none⟩,
  ⟨"john.doe@example.com", some "on call"⟩, ⟨"3600", none⟩, ⟨"600", none⟩, ⟨"86400", none⟩,
  ⟨"300", none⟩]

/-- The same, named and completed. -/
def completed : Record where
  name := "@"
  type := .soa
  data := .multi [⟨"ns1.example.com.", none⟩, ⟨"john\\.doe.example.com.", some "on call"⟩,
    ⟨"2027061501", none⟩, ⟨"3600", none⟩, ⟨"600", none⟩, ⟨"86400", none⟩, ⟨"300", none⟩]

/-- A host without files. -/
def host : Host where
  today := ⟨2027, 6, 15, by decide, by decide⟩

def run : Except PluginError Record × Host :=
  Builtin.normalizeAuthority Serial.defaultTimeout config "example.com" "@" record host

/-- The serial number comes before the timers, and the zone has its first index. -/
theorem normalizeAuthority_exact_unnumbered :
    run.1 = .ok completed
      ∧ Serial.current run.2.store config.serialDirectory "example.com"
        = .ok (some ⟨20270615, 1⟩) := by
  have hrun : run = (.ok completed, run.2) := Prod.ext (by decide) rfl
  have hbefore : Serial.current (Serial.prepared host.store config.serialDirectory)
      config.serialDirectory "example.com" = .ok none := by decide
  rcases (Builtin.normalizeAuthority_exact hrun).2 completed rfl with
    ⟨assigned, given, values, -, -, -, -, hadvanced⟩
  rcases hadvanced rfl with ⟨previous, hprevious, -, -, hindex⟩
  cases hbefore.symm.trans hprevious
  exact ⟨congrArg Prod.fst hrun, hindex (Store.IsSolid.root host.store)⟩

end Unnumbered

end DnsZones
