import DnsZones.Proofs.Date
import DnsZones.Proofs.Numeral
import DnsZones.Serial

/-!
# Serial Numbers as Numbers

When two indexes have the same serial number, and which has the larger one.

A serial number is text, but whoever fetches a zone compares it as a number. The
day takes eight digits as long as the year has four, and then the rest belongs to
the counter, so no two indexes share a text. As a number, however, the text of a
wide counter is ten or more times as large as it would be with two digits, and
more than the first one of any later day.

The days themselves keep their order: the number of a day is computed in 32 bits
without overflow as long as the calendar of the clock lasts, and is smaller
exactly for an earlier day.

## Main definitions

* `SerialIndex.number`: The number that a serial number denotes.
* `SerialIndex.HasFullBase`: The day of an index takes eight digits.

## Theorems

* `SerialIndex.digits?_serial`: A serial number is read as its number.
* `SerialIndex.serial_injective`: No two indexes share a serial number.
* `SerialIndex.number_lt_iff_of_base_eq`: The order on one day.
* `SerialIndex.number_lt_iff_of_base_lt`: The order across days.
* `SerialIndex.number_lt_size_iff`: The serial numbers of 32 bits.
* `Date.base_isFaithful`: What is kept of a day by its number and by its serial numbers.
-/

namespace DnsZones

namespace SerialIndex

variable {index later : SerialIndex} {date : Date}

/-- The number of digits that a counter takes. -/
def width (counter : Nat) : Nat := (Numeral.padded 2 counter).toList.length

/-- The number that a serial number denotes. -/
def number (index : SerialIndex) : Nat :=
  10 ^ width index.changeIndex.toNat * index.base.toNat + index.changeIndex.toNat

/-- The day of an index takes eight digits. -/
def HasFullBase (index : SerialIndex) : Prop :=
  10 ^ 7 ≤ index.base.toNat ∧ index.base.toNat < 10 ^ 8

/-- A serial number is read as its number. -/
theorem digits?_serial (index : SerialIndex) :
    Numeral.digits? index.serial.toList = some index.number := by
  have hdigits : ∀ c ∈ index.serial.toList, c.isDigit = true := by
    intro c hc
    rw [serial, String.toList_append, List.mem_append] at hc
    exact hc.elim Numeral.isDigit_of_mem_decimal Numeral.isDigit_of_mem_padded
  -- The day has a digit at least.
  have hne : index.serial.toList ≠ [] := by
    rw [serial, String.toList_append, Numeral.decimal, String.toList_ofList]
    exact List.append_ne_nil_of_left_ne_nil Nat.toDigits_ne_nil _
  rw [Numeral.digits?_eq_some hne hdigits, serial, String.toList_append,
    Numeral.value_append_padded, Numeral.value_decimal]
  rfl

/-- No two indexes share a serial number. -/
theorem serial_injective (hi : index.HasFullBase) (hl : later.HasFullBase)
    (h : index.serial = later.serial) : index = later := by
  have hchars := congrArg String.toList h
  rw [serial, serial, String.toList_append, String.toList_append] at hchars
  -- Both days take eight digits, so the texts divide at the same place.
  have hlength : (Numeral.decimal index.base.toNat).toList.length
      = (Numeral.decimal later.base.toNat).toList.length := by
    rw [Numeral.length_decimal hi.1 hi.2, Numeral.length_decimal hl.1 hl.2]
  rcases List.append_inj hchars hlength with ⟨hbase, hcounter⟩
  have hb := UInt32.toNat_inj.mp (Numeral.decimal_injective (String.toList_inj.mp hbase))
  have hc := UInt32.toNat_inj.mp (Numeral.padded_injective (String.toList_inj.mp hcounter))
  cases index
  cases later
  exact congr (congrArg SerialIndex.mk hb) hc

/-- A serial number is made of digits only. -/
theorem denotes_serial (index : SerialIndex) :
    Numeral.Denotes index.serial.toList index.number :=
  Numeral.digits?_eq_some_iff.mp (digits?_serial index)

/-! ### Order -/

/-- On one day a larger counter makes a larger number, and no other does. -/
theorem number_lt_iff_of_base_eq (h : index.base = later.base) :
    index.number < later.number ↔ index.changeIndex.toNat < later.changeIndex.toNat := by
  -- A wider counter shifts the day further.
  have hmono : ∀ {m n : Nat}, m ≤ n →
      10 ^ width m * later.base.toNat ≤ 10 ^ width n * later.base.toNat := fun hmn =>
    Nat.mul_le_mul_right _ (Nat.pow_le_pow_right (by decide) (Numeral.length_padded_mono hmn))
  rw [number, number, h]
  constructor
  · intro hlt
    refine Nat.not_le.mp fun hle => ?_
    have := hmono hle
    omega
  · intro hlt
    have := hmono (Nat.le_of_lt hlt)
    omega

/-- The first number of a later day is larger as long as the counter before has two digits, and
    smaller otherwise. -/
theorem number_lt_iff_of_base_lt (hi : index.HasFullBase) (hl : later.HasFullBase)
    (hb : index.base.toNat < later.base.toNat) (hone : later.changeIndex.toNat = 1) :
    index.number < later.number ↔ index.changeIndex.toNat ≤ 99 := by
  have hlater : later.number = 100 * later.base.toNat + 1 := by
    have htwo : width 1 = 2 := Numeral.length_padded_of_lt (by decide) (by decide)
    rw [number, hone, htwo]
    omega
  rcases hi with ⟨hlow, -⟩
  rcases hl with ⟨-, hhigh⟩
  rw [hlater, number]
  by_cases hsmall : index.changeIndex.toNat ≤ 99
  · -- With two digits on both sides the days decide.
    have htwo : width index.changeIndex.toNat = 2 :=
      Numeral.length_padded_of_lt (by decide) (by omega)
    rw [htwo]
    omega
  · -- With a third digit the earlier day has one place more than the later one.
    have hthree : 10 ^ 3 ≤ 10 ^ width index.changeIndex.toNat :=
      Nat.pow_le_pow_right (by decide) (Numeral.lt_length_padded (by decide) (by omega))
    have hlarge := Nat.mul_le_mul hthree hlow
    omega

/-! ### Days -/

/-- An index is of the day on which it was last advanced. -/
theorem base_advance (previous : Option SerialIndex) (today : UInt32) :
    (advance previous today).base = today := by
  unfold advance
  split
  · split
    · rfl
    · rfl
  · rfl

theorem hasFullBase_of_hasFullYear (h : date.HasFullYear) (counter : UInt32) :
    HasFullBase ⟨date.base, counter⟩ := by
  rcases h with ⟨hfirst, hlast⟩
  rcases Date.parts_lt date with ⟨-, hmonth, -, hday⟩
  rw [HasFullBase, Date.base_toNat (Date.HasFullYear.isCounted ⟨hfirst, hlast⟩)]
  omega

/-- A serial number is one of 32 bits up to the year 4294, as long as its counter has two
    digits. -/
theorem number_lt_size_iff (h : date.HasFullYear) (hb : index.base = date.base) :
    index.number < UInt32.size ↔ date.year ≤ 4294 ∧ index.changeIndex.toNat ≤ 99 := by
  have hvalue : index.base.toNat = date.year.toNat * 10000 + date.month * 100 + date.day := by
    rw [hb, Date.base_toNat h.isCounted]
  rcases h with ⟨hfirst, -⟩
  rcases Date.parts_lt date with ⟨hmonth, hmonth', hday, hday'⟩
  rw [number, UInt32.size]
  by_cases hsmall : index.changeIndex.toNat ≤ 99
  · -- The last number of the year 4294 is 4294123199, and the first of the next is too large.
    have htwo : width index.changeIndex.toNat = 2 :=
      Numeral.length_padded_of_lt (by decide) (by omega)
    rw [htwo]
    omega
  · -- A third digit makes the number of any full year too large.
    have hthree : 10 ^ 3 ≤ 10 ^ width index.changeIndex.toNat :=
      Nat.pow_le_pow_right (by decide) (Numeral.lt_length_padded (by decide) (by omega))
    have hbase : 10 ^ 7 ≤ index.base.toNat := by omega
    have hlarge := Nat.mul_le_mul hthree hbase
    omega

end SerialIndex

namespace Date

/-- The number of a day is computed in 32 bits without overflow, and is smaller exactly for an
    earlier day. In years of four digits a serial number leaves no doubt about its day or about
    its counter. -/
theorem base_isFaithful {date other : Date} (h : date.IsCounted) (ho : other.IsCounted) :
    date.FitsWords ∧ other.FitsWords
      ∧ (date.IsBefore other ↔ date.base < other.base)
      ∧ (date.HasFullYear → other.HasFullYear → ∀ counter counter' : UInt32,
        SerialIndex.serial ⟨date.base, counter⟩ = SerialIndex.serial ⟨other.base, counter'⟩
          ↔ date = other ∧ counter = counter') := by
  refine ⟨fitsWords_of_isCounted h, fitsWords_of_isCounted ho, ?_,
    fun hy hy' counter counter' => ?_⟩
  · rw [UInt32.lt_iff_toNat_lt]
    exact (base_lt_iff h ho).symm
  · constructor
    · intro hserial
      have hindex := SerialIndex.serial_injective
        (SerialIndex.hasFullBase_of_hasFullYear hy counter)
        (SerialIndex.hasFullBase_of_hasFullYear hy' counter') hserial
      exact ⟨base_inj h ho (congrArg SerialIndex.base hindex),
        congrArg SerialIndex.changeIndex hindex⟩
    · rintro ⟨rfl, rfl⟩
      rfl

/-- The last day of the calendar. -/
def last : Date := ⟨262142, 12, 31, by decide, by decide⟩

/-- The last day of the years of four digits. -/
def lastOfFullYears : Date := ⟨9999, 12, 31, by decide, by decide⟩

/-- The last days of all have large numbers and are no exception. -/
theorem base_isFaithful_last :
    last.FitsWords ∧ last.base = 2621421231
      ∧ (lastOfFullYears.IsBefore last ∧ lastOfFullYears.base < last.base)
      ∧ SerialIndex.serial ⟨lastOfFullYears.base, 9⟩
        ≠ SerialIndex.serial ⟨lastOfFullYears.base, 90⟩ := by
  have hfull : lastOfFullYears.HasFullYear := by decide
  have hlast : last.IsCounted := ⟨by decide, by decide⟩
  have hbefore : lastOfFullYears.IsBefore last := by decide
  rcases base_isFaithful hfull.isCounted hlast with ⟨-, hfits, horder, -⟩
  rcases base_isFaithful hfull.isCounted hfull.isCounted with ⟨-, -, -, hserial⟩
  refine ⟨hfits, by decide, ⟨hbefore, horder.mp hbefore⟩, fun he => ?_⟩
  exact absurd ((hserial hfull hfull 9 90).mp he).2 (by decide)

end Date

end DnsZones
