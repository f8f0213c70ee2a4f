import DnsZones.Proofs.Builtin.Records
import DnsZones.Proofs.Mailbox

/-!
# Records That Are Settled

Which records the builtin plugins leave as they are.

A plugin fills in a name that is missing, and brings the mailbox of a start of
authority into the form of a name. Both are done once and for all: a record with
a name keeps it, and a mailbox in form is left alone. So a start of authority
that was normalized passes a second time unchanged, under any name, as long as
its serial number is not to be given out anew. A record that leads to a name
passes exactly if what it leads to is a valid name.

## Main definitions

* `Builtin.IsSettledAuthority`: A start of authority that passes unchanged.

## Theorems

* `Builtin.check_check`: The values of a start of authority are checked once and for all.
* `Builtin.isSettledAuthority_of_answers`: What was normalized is settled.
* `Builtin.leaves_authority`, `Builtin.leaves_of_stateless`, `Builtin.leaves_pointer`: What is
  left alone.
* `Builtin.isValid_of_answers_pointer`: No other pointer passes.
-/

namespace DnsZones

namespace Builtin

/-! ### Start of authority -/

@[simp]
theorem ofValues?_toValues (soa : Soa) : Soa.ofValues? soa.toValues = some soa := by
  rcases soa with ⟨primary, email, serial, refresh, retry, expire, minimum⟩
  cases serial with
  | none => rfl
  | some serial => rfl

/-- The values of a start of authority are checked once and for all. -/
theorem check_check {soa checked : Soa} {generating : Bool}
    (h : soa.check generating = .ok checked) : checked.check generating = .ok checked := by
  rcases check_eq_ok_iff.mp h with ⟨hprimary, hnumeric, mailbox, hmailbox, rfl⟩
  -- The mailbox is all that checking changes, and it is in form after that.
  have hencoded := Mailbox.encode_of_isEncoded (Mailbox.isEncoded_of_encode hmailbox)
  refine check_eq_ok_iff.mpr ⟨hprimary, ?_, mailbox, hencoded, rfl⟩
  exact ⟨hnumeric.serial, hnumeric.refresh, hnumeric.retry, hnumeric.expire, hnumeric.minimum⟩

/-- A start of authority whose values are all there and in form. Its name is of no account. -/
structure IsSettledAuthority (record : Record) : Prop where
  type : record.type = .soa
  classText : Record.checkClass record.classText = .ok ()
  values : ∃ soa : Soa, record.data = .multi soa.toValues ∧ soa.serial.isSome = true
    ∧ soa.check false = .ok soa

theorem IsSettledAuthority.withName {record : Record} (h : IsSettledAuthority record)
    (name : String) : IsSettledAuthority { record with name := name } :=
  ⟨h.type, h.classText, h.values⟩

/-- A start of authority with its own serial number is settled once it is normalized. -/
theorem isSettledAuthority_of_normalizeAuthority {timeout : Duration} {config : Config}
    {zone identifier : String} {source record : Record} {host after : Host}
    (hserial : config.generateSerial = false) (htype : source.type = .soa)
    (h : normalizeAuthority timeout config zone identifier source host = (.ok record, after)) :
    IsSettledAuthority record := by
  simp only [normalizeAuthority, hserial, Bool.false_eq_true, if_false] at h
  cases hc : checkAuthority false (source.withDefaultName identifier) with
  | error fault =>
      rw [hc] at h
      cases h
  | ok soa =>
      simp only [hc] at h
      cases h
      have hserial := (checkAuthority_ok hc).2 rfl
      rcases checkAuthority_eq_ok_iff.mp hc with ⟨hclass, -, values, given, -, -, -, hcheck⟩
      refine ⟨(type_withDefaultName _ _).trans htype, hclass, soa, rfl, hserial, ?_⟩
      exact check_check hcheck

/-- Whatever plugin normalized a start of authority, it is settled. -/
theorem isSettledAuthority_of_answers {timeout : Duration} {config : Config}
    {zone identifier : String} {source record : Record} {plugin : Plugin Host}
    (hserial : config.generateSerial = false) (htype : record.type = .soa)
    (hl : (registry timeout).lookup source.type = some plugin)
    (h : Answers (plugin.normalize config zone identifier source) record) :
    IsSettledAuthority record := by
  -- Plugins keep the type, so it was the plugin for starts of authority.
  have hsource : source.type = .soa := (type_of_answers hl h).symm.trans htype
  have hplugin : plugin = authority timeout := by
    rw [hsource] at hl
    exact (Option.some.inj hl).symm
  subst hplugin
  rcases h with ⟨before, after, h⟩
  exact isSettledAuthority_of_normalizeAuthority hserial hsource h

variable {timeout : Duration} {defaults : Option Config} {start : Host} {config : Config}
  {zone identifier : String} {record : Record}

theorem checkOrOrigin_of_isValid {name : String} (h : Name.isValid name = true) :
    Name.checkOrOrigin name = .ok () := by
  unfold Name.checkOrOrigin Name.isValidOrOrigin
  rw [h, Bool.or_true, if_pos rfl]

/-- A record whose name was checked has one, and takes no other. -/
theorem withDefaultName_of_checkOrOrigin (h : Name.checkOrOrigin record.name = .ok ())
    (name : String) : record.withDefaultName name = record := by
  refine withDefaultName_of_ne (fun hempty => ?_) name
  rw [hempty] at h
  exact absurd h (by decide)

/-- A settled start of authority with a name is left alone, unless its serial number is to be
    given out. -/
theorem leaves_authority (hserial : config.generateSerial = false) (h : IsSettledAuthority record)
    (hname : Name.checkOrOrigin record.name = .ok ()) :
    (engine timeout defaults start).Leaves config zone (identifier, record) := by
  rcases h.values with ⟨soa, hdata, hgiven, hcheck⟩
  have hauthority : checkAuthority false record = .ok soa :=
    checkAuthority_eq_ok_iff.mpr ⟨h.classText, hname, _, soa, hdata, ofValues?_toValues soa,
      fun _ => hgiven, hcheck⟩
  have hnamed := withDefaultName_of_checkOrOrigin hname identifier
  refine ⟨authority timeout, by rw [h.type]; rfl, fun state => ?_⟩
  change normalizeAuthority timeout config zone identifier record state = (.ok record, state)
  simp only [normalizeAuthority, hnamed, hserial, hauthority, Bool.false_eq_true, if_false]
  rw [← hdata]

/-! ### Pointers -/

/-- A record that a check of its own accepts as it is, is left alone by a plugin that does
    nothing but check. -/
theorem leaves_of_stateless {version : String} {type : RecordType}
    {normalize : String → Record → Except Fault Record}
    {validateZone : String → Zone → Except PluginError Unit}
    (hl : (registry timeout).lookup record.type
      = some (.stateless version type normalize validateZone))
    (h : normalize identifier record = .ok record) :
    (engine timeout defaults start).Leaves config zone (identifier, record) :=
  ⟨_, hl, fun state => by simp only [Plugin.stateless, h]⟩

/-- A pointer with a name of its own and without a class is left alone if it leads to a valid
    name. -/
theorem leaves_pointer {value : Value} (htype : record.type = .ptr)
    (hclass : record.classText = none) (hname : Name.isValid record.name = true)
    (hdata : record.data = .single value) (hvalue : Name.isValid value.text = true) :
    (engine timeout defaults start).Leaves config zone (identifier, record) := by
  have hsingle : checkSingle record = .ok value :=
    checkSingle_eq_ok_iff.mpr ⟨by rw [hclass]; rfl, checkOrOrigin_of_isValid hname, hdata⟩
  have hnamed := withDefaultName_of_checkOrOrigin (checkOrOrigin_of_isValid hname) identifier
  have hreference : normalizeReference identifier record = .ok record :=
    normalizeReference_eq_ok_iff.mpr ⟨hnamed.symm, value, hsingle, check_of_isValid hvalue⟩
  exact leaves_of_stateless (by rw [htype]; rfl) hreference

/-- A pointer is refused unless it leads to a valid name. -/
theorem isValid_of_answers_pointer {value : Value} {plugin : Plugin Host} {normalized : Record}
    (htype : record.type = .ptr) (hdata : record.data = .single value)
    (hl : (registry timeout).lookup record.type = some plugin)
    (h : Answers (plugin.normalize config zone identifier record) normalized) :
    Name.isValid value.text = true := by
  have hplugin : plugin = pointer := by
    rw [htype] at hl
    exact (Option.some.inj hl).symm
  subst hplugin
  rcases normalizeReference_eq_ok_iff.mp (of_answers_stateless h) with ⟨rfl, found, hfound, hname⟩
  -- What was checked is the value at hand, as filling in a name does not touch it.
  have hkept := (checkSingle_eq_ok_iff.mp hfound).2.2
  rw [data_withDefaultName, hdata] at hkept
  cases hkept
  exact isValid_of_check hname

end Builtin

end DnsZones
