import DnsZones.Proofs.Address
import DnsZones.Proofs.Builtin.Registry
import DnsZones.Proofs.Normalization

/-!
# Records under the Builtin Plugins

What the builtin plugins guarantee of a record that they normalized.

A record may be given in many shapes, and each plugin turns most of them down.
What is left has one shape for each type: an address, a name, or the seven values
of a start of authority. The four types with a single value share the check of
name and class; a start of authority does it on its own, before it looks at its
values, and gets its serial number last, so seven values are only there at the end.

## Main definitions

* `Builtin.HeaderIsSound`: A name and a class as they may be written.
* `Builtin.RecordIsSound`: The shape of a normalized record, by its type.
* `Builtin.IsNumeric`: The numbers of a start of authority are numbers.

## Theorems

* `Builtin.check_eq_ok_iff`, `Builtin.checkAuthority_eq_ok_iff`: What is accepted as a
  start of authority.
* `Builtin.normalizeAddress_ok`, `Builtin.normalizeReference_ok`,
  `Builtin.normalizeAuthority_ok`: What each plugin's own check establishes.
* `Builtin.recordIsSound_of_answers`: All of them together.
-/

namespace DnsZones

namespace Builtin

theorem exists_of_bind_ok {ε α β : Type} {first : Except ε α} {next : α → Except ε β} {result : β}
    (h : first >>= next = .ok result) :
    ∃ between, first = .ok between ∧ next between = .ok result := by
  cases first with
  | error cause => cases h
  | ok between => exact ⟨between, rfl, h⟩

/-- The name and the class of a record are such as may be written. -/
structure HeaderIsSound (record : Record) : Prop where
  /-- The name is the sign for the zone itself or a valid name. -/
  name : record.name = Name.origin ∨ Name.isValid record.name = true
  /-- There is no class, or it is one of the DNS or empty. -/
  classText : record.classText = none ∨ ∃ text ∈ Record.classes, record.classText = some text

/-- What the builtin plugins guarantee of a record that they normalized. -/
structure RecordIsSound (record : Record) : Prop where
  /-- Name and class may be written. -/
  header : HeaderIsSound record
  /-- The type is one that has a builtin plugin. -/
  type : record.type ∈ [RecordType.a, .ns, .cname, .ptr, .soa]
  /-- An address record has one value, and that is an IPv4 address. -/
  address : record.type = .a →
    ∃ value address, record.data = .single value ∧ IPv4.ofString? value.text = some address
  /-- A record that leads to a name has one value, and that is a valid name. -/
  reference : record.type = .ns ∨ record.type = .cname ∨ record.type = .ptr →
    ∃ value, record.data = .single value ∧ Name.isValid value.text = true
  /-- A start of authority has a list of seven values. -/
  authority : record.type = .soa → ∃ values, record.data = .multi values ∧ values.length = 7

/-- The default name does not touch a record's type. -/
@[simp]
theorem type_withDefaultName (record : Record) (name : String) :
    (record.withDefaultName name).type = record.type := by
  unfold Record.withDefaultName
  split
  · rfl
  · rfl

@[simp]
theorem data_withDefaultName (record : Record) (name : String) :
    (record.withDefaultName name).data = record.data := by
  unfold Record.withDefaultName
  split
  · rfl
  · rfl

theorem withDefaultName_of_ne {record : Record} (h : record.name ≠ "") (name : String) :
    record.withDefaultName name = record := by
  unfold Record.withDefaultName
  rw [if_neg (by rwa [String.isEmpty_iff])]

theorem headerIsSound_of_checks {record : Record}
    (hc : Record.checkClass record.classText = .ok ())
    (hn : Name.checkOrOrigin record.name = .ok ()) : HeaderIsSound record := by
  constructor
  · by_cases hv : Name.isValidOrOrigin record.name = true
    · simp only [Name.isValidOrOrigin, Bool.or_eq_true, beq_iff_eq] at hv
      exact hv
    · rw [Name.checkOrOrigin, if_neg hv] at hn
      cases hn
  · cases hct : record.classText with
    | none => exact Or.inl rfl
    | some text =>
        by_cases hm : Record.classes.contains text = true
        · exact Or.inr ⟨text, List.contains_iff_mem.mp hm, rfl⟩
        · rw [hct, Record.checkClass, if_neg hm] at hc
          cases hc

/-- What the four types with a single value check in common. -/
theorem checkSingle_eq_ok_iff {record : Record} {value : Value} :
    checkSingle record = .ok value
      ↔ Record.checkClass record.classText = .ok ()
        ∧ Name.checkOrOrigin record.name = .ok () ∧ record.data = .single value := by
  constructor
  · intro h
    rcases exists_of_bind_ok h with ⟨found, hdata, h⟩
    rcases exists_of_bind_ok h with ⟨_, hclass, h⟩
    rcases exists_of_bind_ok h with ⟨_, hname, h⟩
    cases h
    refine ⟨hclass, hname, ?_⟩
    unfold Record.checkSingle at hdata
    cases hd : record.data with
    | single single =>
        rw [hd] at hdata
        cases hdata
        rfl
    | multi values =>
        rw [hd] at hdata
        cases hdata
  · rintro ⟨hclass, hname, hdata⟩
    simp only [checkSingle, Record.checkSingle, hdata, hclass, hname]
    rfl

theorem checkSingle_ok {record : Record} {value : Value} (h : checkSingle record = .ok value) :
    HeaderIsSound record ∧ record.data = .single value := by
  rcases checkSingle_eq_ok_iff.mp h with ⟨hclass, hname, hdata⟩
  exact ⟨headerIsSound_of_checks hclass hname, hdata⟩

theorem isValid_of_check {name : String} (h : Name.check name = .ok ()) :
    Name.isValid name = true := by
  by_cases hv : Name.isValid name = true
  · exact hv
  · rw [Name.check, if_neg hv] at h
    cases h

/-- When an address record is accepted, and that only its name may change. -/
theorem normalizeAddress_eq_ok_iff {identifier : String} {source record : Record} :
    normalizeAddress identifier source = .ok record
      ↔ record = source.withDefaultName identifier
        ∧ ∃ value address, checkSingle record = .ok value
          ∧ checkIPv4 value.text = .ok address := by
  constructor
  · intro h
    rcases exists_of_bind_ok h with ⟨value, hvalue, h⟩
    rcases exists_of_bind_ok h with ⟨address, haddress, h⟩
    cases h
    exact ⟨rfl, value, address, hvalue, haddress⟩
  · rintro ⟨rfl, value, address, hvalue, haddress⟩
    simp only [normalizeAddress, hvalue]
    change (checkIPv4 value.text >>= fun _ => _) = _
    rw [haddress]
    rfl

theorem normalizeAddress_ok {identifier : String} {source record : Record}
    (h : normalizeAddress identifier source = .ok record) :
    record.type = source.type ∧ HeaderIsSound record
      ∧ ∃ value address, record.data = .single value
        ∧ IPv4.ofString? value.text = some address := by
  rcases normalizeAddress_eq_ok_iff.mp h with ⟨rfl, value, address, hvalue, haddress⟩
  rcases checkSingle_ok hvalue with ⟨hheader, hdata⟩
  exact ⟨type_withDefaultName _ _, hheader, value, address, hdata,
    checkIPv4_eq_ok_iff.mp haddress⟩

theorem check_of_isValid {name : String} (h : Name.isValid name = true) :
    Name.check name = .ok () := if_pos h

/-- When a record that leads to a name is accepted, and that only its name may change. -/
theorem normalizeReference_eq_ok_iff {defaultName : String} {source record : Record} :
    normalizeReference defaultName source = .ok record
      ↔ record = source.withDefaultName defaultName
        ∧ ∃ value, checkSingle record = .ok value ∧ Name.check value.text = .ok () := by
  constructor
  · intro h
    rcases exists_of_bind_ok h with ⟨value, hvalue, h⟩
    rcases exists_of_bind_ok h with ⟨_, hname, h⟩
    cases h
    exact ⟨rfl, value, hvalue, hname⟩
  · rintro ⟨rfl, value, hvalue, hname⟩
    simp only [normalizeReference, hvalue]
    change (Name.check value.text >>= fun _ => _) = _
    rw [hname]
    rfl

/-- A normalized record that leads to a name holds one valid name. -/
theorem normalizeReference_ok {defaultName : String} {source record : Record}
    (h : normalizeReference defaultName source = .ok record) :
    record.type = source.type ∧ HeaderIsSound record
      ∧ ∃ value, record.data = .single value ∧ Name.isValid value.text = true := by
  rcases normalizeReference_eq_ok_iff.mp h with ⟨rfl, value, hvalue, hname⟩
  rcases checkSingle_ok hvalue with ⟨hheader, hdata⟩
  exact ⟨type_withDefaultName _ _, hheader, value, hdata, isValid_of_check hname⟩

/-! ### Start of authority -/

theorem length_toValues {soa : Soa} (h : soa.serial.isSome = true) : soa.toValues.length = 7 := by
  rcases Option.isSome_iff_exists.mp h with ⟨serial, hs⟩
  rw [Soa.toValues, hs]
  rfl

/-- Every value that must be a number is one, the serial number unless it is to be given out. -/
structure IsNumeric (soa : Soa) (generating : Bool) : Prop where
  serial : generating = false → ∀ serial ∈ soa.serial, Soa.checkInteger "serial" serial = .ok ()
  refresh : Soa.checkInteger "refresh" soa.refresh = .ok ()
  retry : Soa.checkInteger "retry" soa.retry = .ok ()
  expire : Soa.checkInteger "expire" soa.expire = .ok ()
  minimum : Soa.checkInteger "minimum" soa.minimum = .ok ()

/-- What the check of the values accepts, and that it changes the mailbox alone. -/
theorem check_eq_ok_iff {soa checked : Soa} {generating : Bool} :
    soa.check generating = .ok checked
      ↔ Name.check soa.primary.text = .ok () ∧ IsNumeric soa generating
        ∧ ∃ mailbox, Mailbox.encode soa.email.text = .ok mailbox
          ∧ checked = { soa with email := { soa.email with text := mailbox } } := by
  rcases soa with ⟨primary, email, serial, refresh, retry, expire, minimum⟩
  constructor
  · intro h
    rcases exists_of_bind_ok h with ⟨_, hprimary, h⟩
    rcases exists_of_bind_ok h with ⟨mailbox, hmailbox, h⟩
    -- What follows the check of the serial number is the same whether there is one or not.
    have hserial : (generating = false →
          ∀ value ∈ serial, Soa.checkInteger "serial" value = .ok ())
        ∧ (do
          Soa.checkInteger "refresh" refresh
          Soa.checkInteger "retry" retry
          Soa.checkInteger "expire" expire
          Soa.checkInteger "minimum" minimum
          return Soa.mk primary { email with text := mailbox } serial refresh retry expire
            minimum) = Except.ok checked := by
      cases serial with
      | none => exact ⟨fun _ value hv => (nomatch hv), h⟩
      | some serial =>
          cases generating with
          | true => exact ⟨fun hg => (nomatch hg), h⟩
          | false =>
              rcases exists_of_bind_ok h with ⟨_, hs, h⟩
              exact ⟨fun _ value hv => Option.some.inj hv ▸ hs, h⟩
    rcases hserial with ⟨hserial, h⟩
    rcases exists_of_bind_ok h with ⟨_, hrefresh, h⟩
    rcases exists_of_bind_ok h with ⟨_, hretry, h⟩
    rcases exists_of_bind_ok h with ⟨_, hexpire, h⟩
    rcases exists_of_bind_ok h with ⟨_, hminimum, h⟩
    cases h
    exact ⟨hprimary, ⟨hserial, hrefresh, hretry, hexpire, hminimum⟩, mailbox, hmailbox, rfl⟩
  · rintro ⟨hprimary, ⟨hserial, hrefresh, hretry, hexpire, hminimum⟩, mailbox, hmailbox, rfl⟩
    simp only at hprimary hserial hrefresh hretry hexpire hminimum hmailbox
    cases serial with
    | none =>
        simp only [Soa.check, hprimary, hmailbox, hrefresh, hretry, hexpire, hminimum]
        rfl
    | some serial =>
        cases generating with
        | true =>
            simp only [Soa.check, hprimary, hmailbox, hrefresh, hretry, hexpire, hminimum]
            rfl
        | false =>
            simp only [Soa.check, hprimary, hmailbox, hserial rfl serial rfl, hrefresh, hretry,
              hexpire, hminimum]
            rfl

/-- What the check of a start of authority accepts: class and name may be written, and the values
    are in a list that has all of them, the serial number perhaps left out if one is to be given
    out. -/
theorem checkAuthority_eq_ok_iff {generating : Bool} {record : Record} {soa : Soa} :
    checkAuthority generating record = .ok soa
      ↔ Record.checkClass record.classText = .ok ()
        ∧ Name.checkOrOrigin record.name = .ok ()
        ∧ ∃ values given, record.data = .multi values ∧ Soa.ofValues? values = some given
          ∧ (generating = false → given.serial.isSome = true)
          ∧ given.check generating = .ok soa := by
  constructor
  · intro h
    rcases exists_of_bind_ok h with ⟨_, hclass, h⟩
    rcases exists_of_bind_ok h with ⟨_, hname, h⟩
    refine ⟨hclass, hname, ?_⟩
    cases hd : record.data with
    | single value =>
        rw [hd] at h
        cases h
    | multi values =>
        rw [hd] at h
        cases hv : Soa.ofValues? values with
        | none =>
            simp only [hv] at h
            cases h
        | some given =>
            simp only [hv] at h
            refine ⟨values, given, rfl, hv, ?_⟩
            by_cases hs : given.serial.isNone = true
            · -- Without a serial number the check has failed, unless one is to be given out.
              cases generating with
              | true =>
                  simp only [hs, Bool.not_true, Bool.and_false, Bool.false_eq_true, if_false] at h
                  exact ⟨fun hg => (nomatch hg), h⟩
              | false =>
                  simp only [hs, Bool.not_false, Bool.and_true, if_true] at h
                  cases h
            · rw [Bool.not_eq_true] at hs
              simp only [hs, Bool.false_and, Bool.false_eq_true, if_false] at h
              rw [← Option.not_isNone, hs]
              exact ⟨fun _ => rfl, h⟩
  · rintro ⟨hclass, hname, values, given, hd, hv, hserial, hcheck⟩
    have hs : (given.serial.isNone && !generating) = false := by
      cases generating with
      | true => exact Bool.and_false _
      | false => rw [← Option.not_isSome, hserial rfl]; rfl
    simp only [checkAuthority, hclass, hname, hd, hv, hs, hcheck]
    rfl

/-- What the check of a start of authority establishes: a header that may be written, and a
    serial number unless one is to be given out. -/
theorem checkAuthority_ok {generating : Bool} {record : Record} {soa : Soa}
    (h : checkAuthority generating record = .ok soa) :
    HeaderIsSound record ∧ (generating = false → soa.serial.isSome = true) := by
  rcases checkAuthority_eq_ok_iff.mp h with ⟨hclass, hname, _, given, -, -, hserial, hcheck⟩
  rcases check_eq_ok_iff.mp hcheck with ⟨-, -, mailbox, -, rfl⟩
  exact ⟨headerIsSound_of_checks hclass hname, hserial⟩

/-- A normalized start of authority holds seven values. -/
theorem normalizeAuthority_ok {timeout : Duration} {config : Config} {zone identifier : String}
    {source record : Record} {host after : Host}
    (h : normalizeAuthority timeout config zone identifier source host = (.ok record, after)) :
    record.type = source.type ∧ HeaderIsSound record
      ∧ ∃ values, record.data = .multi values ∧ values.length = 7 := by
  simp only [normalizeAuthority] at h
  cases hc : checkAuthority config.generateSerial (source.withDefaultName identifier) with
  | error fault =>
      rw [hc] at h
      cases h
  | ok soa =>
      rcases checkAuthority_ok hc with ⟨hheader, hserial⟩
      simp only [hc] at h
      by_cases hg : config.generateSerial = true
      · -- The serial number is given out here.
        rw [if_pos hg] at h
        rcases hn : Serial.next host.store host.today timeout config.serialDirectory zone
          with ⟨result, store⟩
        cases result with
        | error cause =>
            rw [hn] at h
            cases h
        | ok serial =>
            rw [hn] at h
            cases h
            exact ⟨type_withDefaultName _ _, ⟨hheader.name, hheader.classText⟩, _, rfl,
              length_toValues rfl⟩
      · -- The serial number was given, which the check made sure of.
        rw [if_neg hg] at h
        cases h
        exact ⟨type_withDefaultName _ _, ⟨hheader.name, hheader.classText⟩, _, rfl,
          length_toValues (hserial (Bool.eq_false_iff.mpr hg))⟩

/-! ### All types -/

theorem of_answers_stateless {σ : Type} {version : String} {type : RecordType}
    {normalize : String → Record → Except Fault Record}
    {validateZone : String → Zone → Except PluginError Unit} {config : Config}
    {zone identifier : String} {source record : Record}
    (h : Answers ((Plugin.stateless version type normalize validateZone : Plugin σ).normalize
      config zone identifier source) record) : normalize identifier source = .ok record := by
  rcases h with ⟨before, after, h⟩
  simp only [Plugin.stateless] at h
  cases hn : normalize identifier source with
  | error fault =>
      rw [hn] at h
      cases h
  | ok normalized =>
      rw [hn] at h
      cases h
      rfl

theorem type_of_answers {timeout : Duration} {config : Config} {zone identifier : String}
    {source record : Record} {plugin : Plugin Host}
    (hl : (registry timeout).lookup source.type = some plugin)
    (h : Answers (plugin.normalize config zone identifier source) record) :
    record.type = source.type := by
  rcases lookup_cases hl with ⟨-, rfl⟩ | ⟨-, rfl⟩ | ⟨-, rfl⟩ | ⟨-, rfl⟩ | ⟨-, rfl⟩
  · exact (normalizeAddress_ok (of_answers_stateless h)).1
  · rw [nameServer] at h
    have hn := of_answers_stateless h
    exact (normalizeReference_ok hn).1
  · exact (normalizeReference_ok (of_answers_stateless h)).1
  · exact (normalizeReference_ok (of_answers_stateless h)).1
  · rcases h with ⟨before, after, h⟩
    exact (normalizeAuthority_ok h).1

/-- A record of one of the types that lead to a name has the shape of its type if its header
    is sound and its one value is a valid name. -/
theorem recordIsSound_of_reference {record : Record} (hheader : HeaderIsSound record)
    (htype : record.type ∈ [RecordType.ns, .cname, .ptr])
    (hdata : ∃ value, record.data = .single value ∧ Name.isValid value.text = true) :
    RecordIsSound record := by
  have hne : ∀ type ∈ [RecordType.ns, .cname, .ptr], type ≠ .a ∧ type ≠ .soa := by decide
  rcases hne record.type htype with ⟨ha, hsoa⟩
  have hfive : ∀ type ∈ [RecordType.ns, .cname, .ptr],
      type ∈ [RecordType.a, .ns, .cname, .ptr, .soa] := by decide
  exact ⟨hheader, hfive record.type htype, fun h => absurd h ha, fun _ => hdata,
    fun h => absurd h hsoa⟩

/-- A record that one of the builtin plugins normalized has the shape of its type. -/
theorem recordIsSound_of_answers {timeout : Duration} {config : Config} {zone identifier : String}
    {source record : Record} {plugin : Plugin Host}
    (hl : (registry timeout).lookup source.type = some plugin)
    (h : Answers (plugin.normalize config zone identifier source) record) :
    RecordIsSound record := by
  -- One case for each builtin plugin.
  rcases lookup_cases hl with ⟨ht, rfl⟩ | ⟨ht, rfl⟩ | ⟨ht, rfl⟩ | ⟨ht, rfl⟩ | ⟨ht, rfl⟩
  · rcases normalizeAddress_ok (of_answers_stateless h) with ⟨htype, hheader, hdata⟩
    rw [ht] at htype
    exact ⟨hheader, by rw [htype]; decide, fun _ => hdata,
      by rw [htype]; exact fun he => absurd he (by decide),
      by rw [htype]; exact fun he => absurd he (by decide)⟩
  · rw [nameServer] at h
    have hn := of_answers_stateless h
    rcases normalizeReference_ok hn with ⟨htype, hheader, hdata⟩
    exact recordIsSound_of_reference hheader (by rw [htype, ht]; decide) hdata
  · rcases normalizeReference_ok (of_answers_stateless h) with ⟨htype, hheader, hdata⟩
    exact recordIsSound_of_reference hheader (by rw [htype, ht]; decide) hdata
  · rcases normalizeReference_ok (of_answers_stateless h) with ⟨htype, hheader, hdata⟩
    exact recordIsSound_of_reference hheader (by rw [htype, ht]; decide) hdata
  · rcases h with ⟨before, after, h⟩
    rcases normalizeAuthority_ok h with ⟨htype, hheader, hdata⟩
    rw [ht] at htype
    exact ⟨hheader, by rw [htype]; decide, by rw [htype]; exact fun he => absurd he (by decide),
      by rw [htype]; exact fun he => absurd he (by decide), fun _ => hdata⟩

end Builtin

end DnsZones
