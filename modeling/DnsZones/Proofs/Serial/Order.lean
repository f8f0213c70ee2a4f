import DnsZones.Proofs.Serial.Runs
import Mathlib.Data.List.Induction

/-!
# Growing Serial Numbers

When the serial numbers of a run grow.

Secondary servers look at a serial number as a number and fetch a zone only when
it has grown. On one day it always grows. From one day to the next it grows only
if the counter of the day before still has two digits: a third digit makes the
number ten times as large, and the next day starts again with two. So what
matters is how many calls fall on each day, except on the last one, where any
number below the cap will do.

The proof follows a run call by call from its front, since the number of a call
has to be compared with the last one before it only.

## Main definitions

* `Serial.IsBelow`: Two texts read as numbers.
* `Serial.IsSteady`: Days on which serial numbers grow.

## Theorems

* `Serial.getLast?_indexes`: The last index counts the calls of its day.
* `Serial.isSteady_concat_same`, `Serial.isSteady_concat_later`: One more call.
* `Serial.pairwise_number_iff`: The numbers of a list of days grow if it is steady.
* `Serial.Run.increasing_iff`: The serial numbers of a run grow if it is steady.
-/

namespace DnsZones

namespace Serial

/-- Both texts are decimal numbers, and the first is smaller than the second. -/
def IsBelow (earlier later : String) : Prop :=
  ∃ m n, Numeral.digits? earlier.toList = some m ∧ Numeral.digits? later.toList = some n ∧ m < n

/-- No day has more calls than the counter can count, and only the last day has more than 99. -/
def IsSteady (dates : List Date) : Prop :=
  ∀ date ∈ dates, dates.count date ≤ 2 ^ 32 - 1
    ∧ ((∃ later ∈ dates, date.IsBefore later) → dates.count date ≤ 99)

instance (dates : List Date) : Decidable (IsSteady dates) :=
  inferInstanceAs (Decidable (∀ date ∈ dates, dates.count date ≤ 2 ^ 32 - 1
    ∧ ((∃ later ∈ dates, date.IsBefore later) → dates.count date ≤ 99)))

/-- Days in order, in years of four digits. -/
structure IsOrdered (dates : List Date) : Prop where
  /-- The years have four digits. -/
  years : ∀ date ∈ dates, date.HasFullYear
  /-- The days never go back. -/
  forward : dates.Pairwise fun date later => date.base.toNat ≤ later.base.toNat

variable {previous : Option SerialIndex} {dates : List Date} {date last : Date}

/-- Serial numbers are compared by their numbers. -/
theorem isBelow_serial_iff {index later : SerialIndex} :
    IsBelow index.serial later.serial ↔ index.number < later.number := by
  rw [IsBelow, SerialIndex.digits?_serial, SerialIndex.digits?_serial]
  constructor
  · rintro ⟨m, n, hm, hn, hlt⟩
    cases hm
    cases hn
    exact hlt
  · exact fun hlt => ⟨_, _, rfl, rfl, hlt⟩

namespace IsOrdered

theorem init (h : IsOrdered (dates ++ [date])) : IsOrdered dates :=
  ⟨fun day hday => h.years day (List.mem_append_left _ hday), (List.pairwise_append.mp h.forward).1⟩

theorem base_le (h : IsOrdered (dates ++ [date])) {day : Date} (hday : day ∈ dates ++ [date]) :
    day.base.toNat ≤ date.base.toNat := by
  rcases List.mem_append.mp hday with hday | hday
  · exact (List.pairwise_append.mp h.forward).2.2 day hday date List.mem_cons_self
  · rw [List.mem_singleton.mp hday]

theorem isBefore_iff (h : IsOrdered dates) (hd : date ∈ dates) (hl : last ∈ dates) :
    date.IsBefore last ↔ date.base.toNat < last.base.toNat :=
  (Date.base_lt_iff (h.years date hd).isCounted (h.years last hl).isCounted).symm

theorem eq_of_base (h : IsOrdered dates) (hd : date ∈ dates) (hl : last ∈ dates)
    (he : date.base.toNat = last.base.toNat) : date = last :=
  Date.base_inj (h.years date hd).isCounted (h.years last hl).isCounted (UInt32.toNat_inj.mp he)

end IsOrdered

/-- The index of one more call. -/
theorem indexes_concat (previous : Option SerialIndex) (dates : List Date) (date : Date) :
    indexes previous (dates ++ [date]) = indexes previous dates
      ++ [⟨date.base, UInt32.ofNat (counter ((indexes previous dates).getLast?.or previous)
        date.base)⟩] := by
  induction dates generalizing previous with
  | nil => rfl
  | cons first dates ih =>
      rw [List.cons_append, indexes, indexes, ih, List.cons_append, List.getLast?_cons]
      cases (indexes (some _) dates).getLast? with
      | none => rfl
      | some index => rfl

theorem count_concat_self (dates : List Date) (date : Date) :
    (dates ++ [date]).count date = dates.count date + 1 := by
  rw [List.count_append, List.count_singleton_self]

theorem count_concat_of_ne (dates : List Date) {date last : Date} (h : last ≠ date) :
    (dates ++ [last]).count date = dates.count date := by
  have hnone : [last].count date = 0 :=
    List.count_eq_zero_of_not_mem fun hm => h (List.mem_singleton.mp hm).symm
  rw [List.count_append, hnone, Nat.add_zero]

theorem toNat_ofNat_min (n : Nat) :
    (UInt32.ofNat (min n (2 ^ 32 - 1))).toNat = min n (2 ^ 32 - 1) := by
  rw [UInt32.toNat_ofNat']
  omega

/-- The last index counts the calls of its day, up to the cap. -/
theorem getLast?_indexes (h : IsOrdered (dates ++ [date])) :
    (indexes none (dates ++ [date])).getLast?
      = some ⟨date.base, UInt32.ofNat (min ((dates ++ [date]).count date) (2 ^ 32 - 1))⟩ := by
  induction dates using List.reverseRecOn generalizing date with
  | nil =>
      rw [List.nil_append, List.count_singleton_self]
      rfl
  | append_singleton dates last ih =>
      -- The last index so far counts its day, by induction from the end.
      rw [indexes_concat, List.getLast?_concat, ih h.init, Option.some_or, counter]
      have hmem : last ∈ dates ++ [last] := List.mem_append_right _ List.mem_cons_self
      by_cases hsame : last = date
      · -- One more call on the same day, and the cap holds on both sides.
        subst hsame
        have hcount : (dates ++ [last] ++ [last]).count last = (dates ++ [last]).count last + 1 :=
          count_concat_self _ _
        rw [if_pos rfl, toNat_ofNat_min, hcount]
        congr 3
        omega
      · -- No call before was on this day, because the last one was on an earlier day.
        have hbase : last.base ≠ date.base := fun he =>
          hsame (h.eq_of_base (List.mem_append_left _ hmem)
            (List.mem_append_right _ List.mem_cons_self) (congrArg UInt32.toNat he))
        have hnone : date ∉ dates ++ [last] := by
          intro hdate
          have hle := h.init.base_le hdate
          have hge := h.base_le (List.mem_append_left [date] hmem)
          exact hbase (UInt32.toNat_inj.mp (Nat.le_antisymm hge hle))
        rw [if_neg hbase, List.count_append, List.count_eq_zero_of_not_mem hnone,
          List.count_singleton_self]
        rfl

/-! ### One more call -/

/-- Of a list that is in order with one more item, only the last item before matters. -/
theorem pairwise_concat_iff {α : Type} (f : α → Nat) {xs : List α} {x y : α}
    (hy : xs.getLast? = some y) :
    (xs ++ [x]).Pairwise (fun a b => f a < f b)
      ↔ xs.Pairwise (fun a b => f a < f b) ∧ f y < f x := by
  rcases List.getLast?_eq_some_iff.mp hy with ⟨ys, rfl⟩
  rw [List.pairwise_append]
  constructor
  · rintro ⟨hxs, -, hall⟩
    exact ⟨hxs, hall y (List.mem_append_right _ List.mem_cons_self) x List.mem_cons_self⟩
  · rintro ⟨hxs, hlt⟩
    refine ⟨hxs, List.pairwise_singleton _ _, fun a ha b hb => ?_⟩
    rw [List.mem_singleton.mp hb]
    rcases List.mem_append.mp ha with ha | ha
    · exact Nat.lt_trans ((List.pairwise_append.mp hxs).2.2 a ha y List.mem_cons_self) hlt
    · rw [List.mem_singleton.mp ha]
      exact hlt

/-- One more call on the last day is one more for the counter. -/
theorem isSteady_concat_same (h : IsOrdered (dates ++ [date])) (hd : date ∈ dates) :
    IsSteady (dates ++ [date]) ↔ IsSteady dates ∧ dates.count date < 2 ^ 32 - 1 := by
  have hmem : date ∈ dates ++ [date] := List.mem_append_left _ hd
  -- Nothing comes after the last day.
  have hlast : ¬∃ later ∈ dates ++ [date], date.IsBefore later := by
    rintro ⟨later, hlater, hbefore⟩
    have hlt := (h.isBefore_iff hmem hlater).mp hbefore
    have hle := h.base_le hlater
    omega
  constructor
  · refine fun hs => ⟨fun day hday => ?_, ?_⟩
    · rcases hs day (List.mem_append_left _ hday) with ⟨hcap, hwide⟩
      have hle : dates.count day ≤ (dates ++ [date]).count day :=
        (List.sublist_append_left _ _).count_le day
      refine ⟨Nat.le_trans hle hcap, fun hlater => Nat.le_trans hle (hwide ?_)⟩
      rcases hlater with ⟨later, hlater, hbefore⟩
      exact ⟨later, List.mem_append_left _ hlater, hbefore⟩
    · have hcap := (hs date hmem).1
      rw [count_concat_self] at hcap
      omega
  · rintro ⟨hs, hlt⟩ day hday
    by_cases hsame : date = day
    · -- The last day has no later one, so it may be as wide as the counter.
      subst hsame
      rw [count_concat_self]
      exact ⟨by omega, fun hlater => absurd hlater hlast⟩
    · have hday' : day ∈ dates := by
        rcases List.mem_append.mp hday with hday | hday
        · exact hday
        · exact absurd (List.mem_singleton.mp hday).symm hsame
      rw [count_concat_of_ne dates hsame]
      refine ⟨(hs day hday').1, fun ⟨later, hlater, hbefore⟩ => (hs day hday').2 ?_⟩
      rcases List.mem_append.mp hlater with hlater | hlater
      · exact ⟨later, hlater, hbefore⟩
      · rw [List.mem_singleton.mp hlater] at hbefore
        exact ⟨date, hd, hbefore⟩

/-- The first call on a later day makes the day before one that is not the last. -/
theorem isSteady_concat_later (h : IsOrdered (dates ++ [last] ++ [date]))
    (hlt : last.base.toNat < date.base.toNat) :
    IsSteady (dates ++ [last] ++ [date])
      ↔ IsSteady (dates ++ [last]) ∧ (dates ++ [last]).count last ≤ 99 := by
  have hlast : last ∈ dates ++ [last] := List.mem_append_right _ List.mem_cons_self
  have hmem : ∀ {day : Date}, day ∈ dates ++ [last] → day ∈ dates ++ [last] ++ [date] :=
    fun hday => List.mem_append_left _ hday
  have hdate : date ∈ dates ++ [last] ++ [date] := List.mem_append_right _ List.mem_cons_self
  have hne : ∀ day ∈ dates ++ [last], date ≠ day := by
    rintro day hday rfl
    have hle := h.init.base_le hday
    omega
  constructor
  · refine fun hs => ⟨fun day hday => ?_, ?_⟩
    · rcases hs day (hmem hday) with ⟨hcap, hwide⟩
      rw [count_concat_of_ne _ (hne day hday)] at hcap hwide
      exact ⟨hcap, fun ⟨later, hlater, hbefore⟩ => hwide ⟨later, hmem hlater, hbefore⟩⟩
    · have hwide := (hs last (hmem hlast)).2
        ⟨date, hdate, (h.isBefore_iff (hmem hlast) hdate).mpr hlt⟩
      rwa [count_concat_of_ne _ (hne last hlast)] at hwide
  · rintro ⟨hs, hwide⟩ day hday
    rcases List.mem_append.mp hday with hday | hday
    · rw [count_concat_of_ne _ (hne day hday)]
      refine ⟨(hs day hday).1, fun _ => ?_⟩
      -- The day before is the last one so far, and it is narrow; any other had a later day already.
      by_cases hsame : day = last
      · rw [hsame]
        exact hwide
      · refine (hs day hday).2 ⟨last, hlast, (h.init.isBefore_iff hday hlast).mpr ?_⟩
        rcases Nat.lt_or_eq_of_le (h.init.base_le hday) with hbefore | heq
        · exact hbefore
        · exact absurd (h.init.eq_of_base hday hlast heq) hsame
    · rw [List.mem_singleton.mp hday, count_concat_self,
        List.count_eq_zero_of_not_mem fun hm => hne date hm rfl]
      refine ⟨by decide, fun ⟨later, hlater, hbefore⟩ => ?_⟩
      have hafter := (h.isBefore_iff hdate hlater).mp hbefore
      have hle := h.base_le hlater
      omega

/-- The numbers of a list of days grow exactly if the list is steady. -/
theorem pairwise_number_iff (h : IsOrdered dates) :
    (indexes none dates).Pairwise (fun index later => index.number < later.number)
      ↔ IsSteady dates := by
  induction dates using List.reverseRecOn with
  | nil => exact ⟨fun _ => nofun, fun _ => List.Pairwise.nil⟩
  | append_singleton dates date ih =>
      rcases List.eq_nil_or_concat' dates with rfl | ⟨dates, last, rfl⟩
      · refine ⟨fun _ day hday => ?_, fun _ => List.pairwise_singleton _ _⟩
        rw [List.mem_singleton.mp hday, List.nil_append, List.count_singleton_self]
        exact ⟨by decide, fun _ => by decide⟩
      · have hlast : last ∈ dates ++ [last] := List.mem_append_right _ List.mem_cons_self
        have hindex := getLast?_indexes h.init
        -- Only the last two numbers are new, whatever came before.
        rw [indexes_concat, pairwise_concat_iff SerialIndex.number hindex, ih h.init, hindex,
          Option.some_or]
        by_cases hsame : last = date
        · -- On one day the numbers grow until the counter is at its cap.
          subst hsame
          rw [isSteady_concat_same h hlast]
          have hnumber : ∀ c c' : UInt32, SerialIndex.number ⟨last.base, c⟩
              < SerialIndex.number ⟨last.base, c'⟩ ↔ c.toNat < c'.toNat := fun _ _ =>
            SerialIndex.number_lt_iff_of_base_eq rfl
          rw [counter, if_pos rfl, hnumber, toNat_ofNat_min, toNat_ofNat_min]
          refine and_congr_right fun _ => ?_
          omega
        · -- Across days they grow if the day before has not taken a third digit.
          have hlt : last.base.toNat < date.base.toNat := by
            have hmem := List.mem_append_left [date] hlast
            refine Nat.lt_of_le_of_ne (h.base_le hmem) fun he => hsame ?_
            exact h.eq_of_base hmem (List.mem_append_right _ List.mem_cons_self) he
          have hone : counter (some ⟨last.base,
              UInt32.ofNat (min ((dates ++ [last]).count last) (2 ^ 32 - 1))⟩) date.base = 1 :=
            if_neg fun he => Nat.ne_of_lt hlt (congrArg UInt32.toNat he)
          rw [isSteady_concat_later h hlt, hone]
          have hnumber : ∀ c : UInt32, SerialIndex.number ⟨last.base, c⟩
              < SerialIndex.number ⟨date.base, UInt32.ofNat 1⟩ ↔ c.toNat ≤ 99 := fun c =>
            SerialIndex.number_lt_iff_of_base_lt
              (SerialIndex.hasFullBase_of_hasFullYear (h.init.years last hlast) c)
              (SerialIndex.hasFullBase_of_hasFullYear
                (h.years date (List.mem_append_right _ List.mem_cons_self)) _) hlt rfl
          rw [hnumber, toNat_ofNat_min]
          refine and_congr_right fun _ => ?_
          omega

namespace Run

/-- The serial numbers of a run that begins without an index and whose days never go back grow
    exactly if no day but the last has more than 99 successful calls, and the last no more than the
    counter can count. -/
theorem increasing_iff {run : Run} (h : run.IsOrdinary) (hinitial : run.initial = none)
    (hyears : run.HasFullYears) (hforward : run.IsForward) :
    run.texts.Pairwise IsBelow ↔ IsSteady run.dates := by
  rw [texts_eq h, hinitial, List.pairwise_map, ← pairwise_number_iff
    ⟨hyears, pairwise_base hforward hyears⟩]
  exact List.Pairwise.iff fun index later => isBelow_serial_iff

/-- Two calls on one day and one on the next, which are few enough. -/
theorem increasing_alone : IsSteady (alone [third, third, fourth]).dates
    ∧ (alone [third, third, fourth]).texts.Pairwise IsBelow := by
  have hdates := dates_alone [third, third, fourth]
  have hsteady : IsSteady (alone [third, third, fourth]).dates := by
    rw [hdates]
    decide
  refine ⟨hsteady, (increasing_iff (isOrdinary_alone _) (initial_alone _) ?_ ?_).mpr hsteady⟩
  · rw [HasFullYears, hdates]
    decide
  · rw [IsForward, hdates]
    decide

/-- A hundred calls on one day and one on the next. -/
def wideDay : Run := alone (List.replicate 100 third ++ [fourth])

/-- After a hundred calls on one day the next day begins with a smaller number. -/
theorem not_increasing_wideDay :
    wideDay.IsOrdinary ∧ wideDay.initial = none ∧ wideDay.HasFullYears ∧ wideDay.IsForward
      ∧ wideDay.texts[99]? = some "20250903100" ∧ wideDay.texts[100]? = some "2025090401"
      ∧ ¬wideDay.texts.Pairwise IsBelow := by
  have hrun : wideDay.IsOrdinary := isOrdinary_alone _
  have hinitial : wideDay.initial = none := initial_alone _
  have hdates : wideDay.dates = List.replicate 100 third ++ [fourth] := dates_alone _
  have hwide : wideDay.texts[99]? = some "20250903100" := by
    rw [texts_eq hrun, hinitial, hdates]
    decide +kernel
  have hnarrow : wideDay.texts[100]? = some "2025090401" := by
    rw [texts_eq hrun, hinitial, hdates]
    decide
  refine ⟨hrun, hinitial, ?_, ?_, hwide, hnarrow, fun hpairwise => ?_⟩
  · rw [HasFullYears, hdates]
    decide
  · rw [IsForward, hdates]
    decide
  · -- The counter took a third digit, so the number before is ten times as large.
    rcases List.getElem?_eq_some_iff.mp hwide with ⟨hi, hearlier⟩
    rcases List.getElem?_eq_some_iff.mp hnarrow with ⟨hj, hlater⟩
    rcases List.pairwise_iff_getElem.mp hpairwise 99 100 hi hj (by decide) with ⟨m, n, hm, hn, hlt⟩
    rw [hearlier] at hm
    rw [hlater] at hn
    cases hm.symm.trans (show _ = some 20250903100 by decide)
    cases hn.symm.trans (show _ = some 2025090401 by decide)
    omega

end Run

end Serial

end DnsZones
