import DnsZones.Proofs.Builtin.Authority
import DnsZones.Proofs.Serial.Numbers

/-!
# Numbers in a Start of Authority

How the numbers of a normalized start of authority are written.

A number reaches the zone file on one of two ways. The timers, and a serial number
that was given, are checked and then kept as the text they are, so the texts are
those that the check accepts: the digits of a 32 bit unsigned integer, but also
the same digits with a plus sign in front. A serial number that is given out is
not checked at all. It is made of digits only, a day and a counter, and nothing
keeps the counter short. With a third digit, or in a late year, the number takes
more than 32 bits.

## Main definitions

* `Builtin.IsInForm`: The values of a start of authority as normalizing leaves them.

## Theorems

* `Builtin.checkInteger_eq_ok_iff`: The texts that are accepted as numbers.
* `Builtin.isInForm_of_normalizeAuthority`: What is known of each value.
* `Builtin.normalizeAuthority_numbers`: How the numbers are written.
-/

namespace DnsZones

namespace Builtin

variable {timeout : Duration} {config : Config} {zone identifier : String}
  {record normalized : Record} {host after : Host} {soa checked : Soa} {generating : Bool}

/-- The texts that are accepted as numbers. -/
theorem checkInteger_eq_ok_iff {field : String} {value : Value} :
    Soa.checkInteger field value = .ok () ↔ Numeral.IsWord value.text := by
  have hword : (∃ word, Numeral.checkWord field value.text = .ok word)
      ↔ Numeral.IsWord value.text := Numeral.checkWord_eq_ok_iff
  rw [← hword]
  unfold Soa.checkInteger
  cases Numeral.checkWord field value.text with
  | error fault => exact ⟨nofun, nofun⟩
  | ok word => exact ⟨fun _ => ⟨word, rfl⟩, fun _ => rfl⟩

/-- The values of a start of authority as normalizing leaves them, but for the serial number. -/
structure IsInForm (soa : Soa) : Prop where
  primary : Name.isValid soa.primary.text = true
  email : Mailbox.IsEncoded soa.email.text
  refresh : Numeral.IsWord soa.refresh.text
  retry : Numeral.IsWord soa.retry.text
  expire : Numeral.IsWord soa.expire.text
  minimum : Numeral.IsWord soa.minimum.text

/-- The check puts the values into form. It looks at the serial number only if that is kept. -/
theorem isInForm_of_check (h : soa.check generating = .ok checked) :
    IsInForm checked
      ∧ (generating = false → ∀ serial ∈ checked.serial, Numeral.IsWord serial.text) := by
  rcases check_eq_ok_iff.mp h with ⟨hprimary, hnumeric, mailbox, hmailbox, rfl⟩
  exact ⟨⟨isValid_of_check hprimary, Mailbox.isEncoded_of_encode hmailbox,
      checkInteger_eq_ok_iff.mp hnumeric.refresh, checkInteger_eq_ok_iff.mp hnumeric.retry,
      checkInteger_eq_ok_iff.mp hnumeric.expire, checkInteger_eq_ok_iff.mp hnumeric.minimum⟩,
    fun hg serial hs => checkInteger_eq_ok_iff.mp (hnumeric.serial hg serial hs)⟩

/-- A start of authority that was normalized holds seven values in form. Its serial number was
    accepted as a number, or given out after the index that was there. -/
theorem isInForm_of_normalizeAuthority
    (h : normalizeAuthority timeout config zone identifier record host = (.ok normalized, after)) :
    ∃ soa serial, normalized.data = .multi soa.toValues ∧ soa.serial = some serial ∧ IsInForm soa
      ∧ (config.generateSerial = false → Numeral.IsWord serial.text)
      ∧ (config.generateSerial = true → ∃ previous,
        Serial.current (Serial.prepared host.store config.serialDirectory)
          config.serialDirectory zone = .ok previous
        ∧ serial.text = (SerialIndex.advance previous host.today.base).serial) := by
  cases hc : checkAuthority config.generateSerial (record.withDefaultName identifier) with
  | error fault =>
      simp only [normalizeAuthority, hc] at h
      cases h
  | ok soa =>
      rcases checkAuthority_eq_ok_iff.mp hc with ⟨-, -, values, given, -, -, -, hcheck⟩
      rcases isInForm_of_check hcheck with ⟨hform, hword⟩
      cases hg : config.generateSerial with
      | false =>
          rw [hg] at hc hword
          simp only [normalizeAuthority, hc, hg, Bool.false_eq_true, if_false] at h
          cases h
          rcases Option.isSome_iff_exists.mp ((checkAuthority_ok hc).2 rfl) with ⟨serial, hs⟩
          exact ⟨soa, serial, rfl, hs, hform, fun _ => hword rfl serial hs,
            fun hg => absurd hg Bool.false_ne_true⟩
      | true =>
          rw [hg] at hc
          rw [normalizeAuthority_of_check hg hc] at h
          rcases hn : Serial.next host.store host.today timeout config.serialDirectory zone
            with ⟨outcome, store⟩
          rw [hn] at h
          cases outcome with
          | error cause => cases h
          | ok serial =>
              rcases Serial.next_ok hn with ⟨previous, hprevious, rfl, -⟩
              cases h
              -- The new serial number replaces one that was not looked at.
              exact ⟨soa.withSerial _, _, rfl, rfl,
                ⟨hform.primary, hform.email, hform.refresh, hform.retry, hform.expire,
                  hform.minimum⟩,
                fun hg => absurd hg.symm Bool.false_ne_true, fun _ => ⟨previous, hprevious, rfl⟩⟩

/-- How the numbers of a start of authority are written once it is normalized. The timers, and a
    serial number that was given, are 32 bit unsigned integers in digits, after at most one plus
    sign. A serial number that is given out has digits only, and as a number it fits into 32 bits
    exactly up to the year 4294 and the 99th change of a day. -/
theorem normalizeAuthority_numbers (hyear : host.today.HasFullYear)
    (h : normalizeAuthority timeout config zone identifier record host = (.ok normalized, after)) :
    ∃ (soa : Soa) (serial : Value), normalized.data = .multi soa.toValues
      ∧ soa.serial = some serial
      ∧ (∀ timer ∈ [soa.refresh, soa.retry, soa.expire, soa.minimum], Numeral.IsWord timer.text)
      ∧ (config.generateSerial = false → Numeral.IsWord serial.text)
      ∧ (config.generateSerial = true → ∃ index : SerialIndex,
        (∃ previous, Serial.current (Serial.prepared host.store config.serialDirectory)
            config.serialDirectory zone = .ok previous
          ∧ index = SerialIndex.advance previous host.today.base)
        ∧ serial.text = index.serial ∧ Numeral.Denotes serial.text.toList index.number
        ∧ (index.number < UInt32.size
          ↔ host.today.year ≤ 4294 ∧ index.changeIndex.toNat ≤ 99)) := by
  rcases isInForm_of_normalizeAuthority h with
    ⟨soa, serial, hdata, hserial, hform, hgiven, hassigned⟩
  refine ⟨soa, serial, hdata, hserial, ?_, hgiven, fun hg => ?_⟩
  · simp only [List.mem_cons, List.not_mem_nil, or_false]
    rintro timer (rfl | rfl | rfl | rfl)
    · exact hform.refresh
    · exact hform.retry
    · exact hform.expire
    · exact hform.minimum
  · rcases hassigned hg with ⟨previous, hprevious, htext⟩
    refine ⟨_, ⟨previous, hprevious, rfl⟩, htext, ?_,
      SerialIndex.number_lt_size_iff hyear (SerialIndex.base_advance previous _)⟩
    rw [htext]
    exact SerialIndex.denotes_serial _

end Builtin

namespace Widened

def config : Config where
  generateSerial := true

/-- A start of authority with a plus sign in front of a timer. -/
def record : Record := .ofValues .soa [⟨"ns1.example.com.", none⟩,
  ⟨"hostmaster@example.com", none⟩, ⟨"7", none⟩, ⟨"+3600", none⟩, ⟨"600", none⟩,
  ⟨"86400", none⟩, ⟨"300", none⟩]

/-- The same, named, with the serial number of the 100th change. -/
def completed : Record where
  name := "@"
  type := .soa
  data := .multi [⟨"ns1.example.com.", none⟩, ⟨"hostmaster.example.com.", none⟩,
    ⟨"19700101100", none⟩, ⟨"+3600", none⟩, ⟨"600", none⟩, ⟨"86400", none⟩, ⟨"300", none⟩]

/-- What 99 changes on one day leave of a zone. -/
def stored : File where
  content := "\x7b\"base_serial_number\":19700101,\"change_index\":99\x7d".toUTF8

/-- A host with that file in the directory of the serial numbers, on the same day. -/
def host : Host where
  store := { entries := Table.ofList [
    (["serials"], .directory),
    (["serials", "example.com..serial"], .file stored)] }
  today := .epoch

def run : Except PluginError Record × Host :=
  Builtin.normalizeAuthority Serial.defaultTimeout config "example.com." "@" record host

theorem run_eq : run = (.ok completed, run.2) := Prod.ext (by decide) rfl

/-- Digits only, of a number of 32 bits. -/
def IsPlain (value : Value) : Prop :=
  ∃ n, n < UInt32.size ∧ Numeral.Denotes value.text.toList n

/-- The serial number that is given out has digits only, but they are too many. -/
theorem normalizeAuthority_numbers_widened :
    host.today.HasFullYear ∧ run.1 = .ok completed
      ∧ Numeral.Denotes "19700101100".toList 19700101100
      ∧ ¬(SerialIndex.number ⟨19700101, 100⟩ < UInt32.size) := by
  have hbefore : Serial.current (Serial.prepared host.store config.serialDirectory)
      config.serialDirectory "example.com." = .ok (some ⟨19700101, 99⟩) := by decide
  have hyear : host.today.HasFullYear := by decide
  rcases Builtin.normalizeAuthority_numbers hyear run_eq with
    ⟨soa, serial, hdata, hserial, -, -, hassigned⟩
  rcases hassigned rfl with ⟨index, ⟨previous, hprevious, rfl⟩, htext, hdenotes, hfits⟩
  cases hbefore.symm.trans hprevious
  rw [htext] at hdenotes
  exact ⟨hyear, congrArg Prod.fst run_eq, hdenotes, fun hlt => absurd (hfits.mp hlt).2 (by decide)⟩

/-- Neither the timer nor the serial number are the digits of a number of 32 bits. -/
theorem not_isPlain_widened :
    ∃ normalized values refresh serial, run.1 = .ok normalized ∧ normalized.data = .multi values
      ∧ values[2]? = some serial ∧ values[3]? = some refresh
      ∧ ¬IsPlain serial ∧ ¬IsPlain refresh := by
  refine ⟨completed, _, _, _, congrArg Prod.fst run_eq, rfl, rfl, rfl, ?_, ?_⟩
  · -- The digits are those of a number that is too large.
    rintro ⟨n, hlt, hn⟩
    rw [← hn.value] at hlt
    exact absurd hlt (by decide)
  · -- The sign is no digit.
    rintro ⟨n, -, hn⟩
    exact absurd (hn.digits '+' (by decide)) (by decide)

end Widened

end DnsZones
