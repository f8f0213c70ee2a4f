import DnsZones.Date

/-!
# Laws of Dates

The order of days and of the numbers that stand for them.

A day is written as year, month and day of the month, each in its own places of
one number. No month has more than 31 days and no year more than 12 months, so
the places never run into each other, and the number of a later day is larger as
long as the year leaves it below the largest number of 32 bits.

## Main definitions

* `Date.IsBefore`: The order of the calendar.
* `Date.IsCounted`, `Date.HasFullYear`: The years that matter.
* `Date.FitsWords`: A day whose number is computed in words without overflow.

## Theorems

* `Date.base_toNat`: The number of a day.
* `Date.fitsWords_of_isCounted`: Every day that is counted is such a day.
* `Date.base_lt_iff`: An earlier day has a smaller number.
* `Date.base_inj`: Two days have different numbers.
-/

namespace DnsZones

/-- No month is longer than 31 days. -/
theorem daysInMonth_le (year : Int) (month : Nat) : daysInMonth year month ≤ 31 := by
  unfold daysInMonth
  split
  · split
    · decide
    · decide
  · decide
  · decide
  · decide
  · decide
  · decide

namespace Date

variable {date other : Date}

/-- The order of the calendar: by year, then by month, then by day. -/
def IsBefore (date other : Date) : Prop :=
  date.year < other.year ∨ date.year = other.year
    ∧ (date.month < other.month ∨ date.month = other.month ∧ date.day < other.day)

instance (date other : Date) : Decidable (IsBefore date other) :=
  inferInstanceAs (Decidable (_ ∨ _))

/-- The years whose days have numbers of 32 bits. -/
def IsCounted (date : Date) : Prop := 0 ≤ date.year ∧ date.year ≤ 262142

/-- The years of four digits. -/
def HasFullYear (date : Date) : Prop := 1000 ≤ date.year ∧ date.year ≤ 9999

instance (date : Date) : Decidable date.HasFullYear :=
  inferInstanceAs (Decidable (1000 ≤ date.year ∧ date.year ≤ 9999))

theorem HasFullYear.isCounted (h : date.HasFullYear) : date.IsCounted :=
  ⟨Int.le_trans (by decide) h.1, Int.le_trans h.2 (by decide)⟩

theorem parts_lt (date : Date) : 1 ≤ date.month ∧ date.month ≤ 12 ∧ 1 ≤ date.day ∧ date.day ≤ 31 :=
  ⟨date.month_valid.1, date.month_valid.2, date.day_valid.1,
    Nat.le_trans date.day_valid.2 (daysInMonth_le date.year date.month)⟩

/-- The number of a day. -/
theorem base_toNat (h : date.IsCounted) :
    date.base.toNat = date.year.toNat * 10000 + date.month * 100 + date.day := by
  rcases h with ⟨hzero, hlast⟩
  rcases parts_lt date with ⟨-, hmonth, -, hday⟩
  rw [base, UInt32.toNat_ofNat']
  -- A year that is counted leaves the number below the largest of 32 bits.
  omega

/-- The number of a day, part by part, in words of 32 bits. No word on the way is too small for what
    it has to hold. -/
structure FitsWords (date : Date) : Prop where
  year : ((UInt32.ofNat date.year.toNat).toNat : Int) = date.year
  years : (UInt32.ofNat date.year.toNat * 10000).toNat = date.year.toNat * 10000
  months : (UInt32.ofNat date.month * 100).toNat = date.month * 100
  /-- The first of the two sums. -/
  upToMonth : (UInt32.ofNat date.year.toNat * 10000 + UInt32.ofNat date.month * 100).toNat
    = date.year.toNat * 10000 + date.month * 100
  upToDay : (UInt32.ofNat date.year.toNat * 10000 + UInt32.ofNat date.month * 100
    + UInt32.ofNat date.day).toNat = date.year.toNat * 10000 + date.month * 100 + date.day
  /-- The second sum is the number. -/
  base : date.base = UInt32.ofNat date.year.toNat * 10000 + UInt32.ofNat date.month * 100
    + UInt32.ofNat date.day

/-- The number of a day that is counted is computed without overflow. -/
theorem fitsWords_of_isCounted (h : date.IsCounted) : date.FitsWords := by
  have hnumber := base_toNat h
  rcases parts_lt date with ⟨-, hmonth, -, hday⟩
  rcases h with ⟨hzero, hlast⟩
  -- The largest number is that of the last day, so each word on the way to it is smaller still.
  have hyear : (UInt32.ofNat date.year.toNat).toNat = date.year.toNat := by
    rw [UInt32.toNat_ofNat']
    omega
  have hyears : (UInt32.ofNat date.year.toNat * 10000).toNat = date.year.toNat * 10000 := by
    rw [UInt32.toNat_mul, hyear, show (10000 : UInt32).toNat = 10000 from rfl]
    omega
  have hmonths : (UInt32.ofNat date.month * 100).toNat = date.month * 100 := by
    rw [UInt32.toNat_mul, UInt32.toNat_ofNat', show (100 : UInt32).toNat = 100 from rfl]
    omega
  have hupToMonth : (UInt32.ofNat date.year.toNat * 10000 + UInt32.ofNat date.month * 100).toNat
      = date.year.toNat * 10000 + date.month * 100 := by
    rw [UInt32.toNat_add, hyears, hmonths]
    omega
  have hupToDay : (UInt32.ofNat date.year.toNat * 10000 + UInt32.ofNat date.month * 100
      + UInt32.ofNat date.day).toNat = date.year.toNat * 10000 + date.month * 100 + date.day := by
    rw [UInt32.toNat_add, hupToMonth, UInt32.toNat_ofNat']
    omega
  exact ⟨by omega, hyears, hmonths, hupToMonth, hupToDay,
    UInt32.toNat_inj.mp (hnumber.trans hupToDay.symm)⟩

/-- An earlier day has a smaller number. -/
theorem base_lt_iff (h : date.IsCounted) (ho : other.IsCounted) :
    date.base.toNat < other.base.toNat ↔ date.IsBefore other := by
  have hdate := parts_lt date
  have hother := parts_lt other
  rw [base_toNat h, base_toNat ho, IsBefore]
  rcases h with ⟨hzero, -⟩
  rcases ho with ⟨hzero', -⟩
  -- Each part is below the place of the next, so the number orders as the parts do.
  omega

/-- Two days have different numbers. -/
theorem base_inj (h : date.IsCounted) (ho : other.IsCounted) (he : date.base = other.base) :
    date = other := by
  have hdate := parts_lt date
  have hother := parts_lt other
  have hvalue := congrArg UInt32.toNat he
  rw [base_toNat h, base_toNat ho] at hvalue
  rcases h with ⟨hzero, -⟩
  rcases ho with ⟨hzero', -⟩
  cases date with
  | mk year month day hm hd =>
      cases other with
      | mk year' month' day' hm' hd' =>
          obtain ⟨rfl, rfl, rfl⟩ : year = year' ∧ month = month' ∧ day = day' := by
            dsimp only at *
            omega
          rfl

end Date

end DnsZones
