import DnsZones.Proofs.Serial.Numbers
import DnsZones.Proofs.Serial.Progress

/-!
# Runs

The law of the serial numbers that a zone is given in one run.

What a zone is given depends on nothing but the index at the beginning and the
days of its own successful calls. While the days do not go back, every index
comes before all later ones: either the day is a later one, or the counter has
gone up. That is enough for no serial number to be given out twice, because the
day takes eight digits and the rest is the counter.

The counter stops at the largest number of 32 bits. From then on the same serial
number is given out again, so that the cap is not reached has to be assumed.

## Main definitions

* `Serial.Precedes`: The order of indexes.
* `Serial.Run`: A run, seen from one zone.
* `Serial.Run.IsOrdinary`: What is assumed of a run.

## Theorems

* `Serial.pairwise_indexes`: Every index comes before all later ones.
* `Serial.Run.outcomes_eq`: Texts and indexes are computed from the days.
* `Serial.Run.law`: The law of a run.
-/

namespace DnsZones

namespace Serial

variable {previous : Option SerialIndex}

/-! ### Order -/

/-- An index comes before another one: its day does, or it is the same day and its counter is
    smaller. -/
def Precedes (index later : SerialIndex) : Prop :=
  index.base.toNat < later.base.toNat
    ∨ index.base = later.base ∧ index.changeIndex.toNat < later.changeIndex.toNat

/-- Coming before is transitive. -/
theorem Precedes.trans {first second third : SerialIndex} (h : Precedes first second)
    (h' : Precedes second third) : Precedes first third := by
  rcases h with hlt | ⟨heq, hlt⟩
  · rcases h' with hlt' | ⟨heq', -⟩
    · exact Or.inl (Nat.lt_trans hlt hlt')
    · exact Or.inl (heq' ▸ hlt)
  · rcases h' with hlt' | ⟨heq', hlt'⟩
    · exact Or.inl (heq ▸ hlt')
    · exact Or.inr ⟨heq.trans heq', Nat.lt_trans hlt hlt'⟩

/-- The days of the indexes are those of the calls. -/
theorem exists_date_of_mem_indexes {dates : List Date} {index : SerialIndex}
    (h : index ∈ indexes previous dates) : ∃ date ∈ dates, index.base = date.base := by
  induction dates generalizing previous with
  | nil => cases h
  | cons date dates ih =>
      rw [indexes] at h
      rcases List.mem_cons.mp h with rfl | h
      · exact ⟨date, List.mem_cons_self, rfl⟩
      · rcases ih h with ⟨other, hm, hbase⟩
        exact ⟨other, List.mem_cons_of_mem _ hm, hbase⟩

/-- While the days never go back and no counter is at the cap, every index comes before all later
    ones, and the index at the beginning before all of them. -/
theorem pairwise_indexes {dates : List Date}
    (hdates : dates.Pairwise fun date later => date.base.toNat ≤ later.base.toNat)
    (hfirst : ∀ index ∈ previous, ∀ date ∈ dates, index.base.toNat ≤ date.base.toNat)
    (hcap : ∀ index ∈ indexes previous dates, index.changeIndex.toNat < 2 ^ 32 - 1) :
    (indexes previous dates).Pairwise Precedes
      ∧ ∀ index ∈ previous, ∀ later ∈ indexes previous dates, Precedes index later := by
  induction dates generalizing previous with
  | nil => exact ⟨List.Pairwise.nil, fun _ _ _ h => nomatch h⟩
  | cons date dates ih =>
      rcases List.pairwise_cons.mp hdates with ⟨hdate, hrest⟩
      rw [indexes] at hcap ⊢
      -- The new index is the one that all later ones are compared with.
      rcases ih hrest
        (fun index hindex => by
          cases hindex
          exact hdate)
        fun index hindex => hcap index (List.mem_cons_of_mem _ hindex) with ⟨hpairwise, hafter⟩
      refine ⟨List.pairwise_cons.mpr ⟨hafter _ rfl, hpairwise⟩, fun index hindex later hlater => ?_⟩
      -- Coming before is transitive, so the next index is enough.
      have hnext : Precedes index ⟨date.base, UInt32.ofNat (counter previous date.base)⟩ := by
        rcases Nat.lt_or_eq_of_le (hfirst index hindex date List.mem_cons_self) with hlt | heq
        · exact Or.inl hlt
        · -- On the same day the counter goes up, since it is not at the cap.
          have hbase := UInt32.toNat_inj.mp heq
          have hbelow := hcap _ List.mem_cons_self
          cases hindex
          rw [counter, if_pos hbase, UInt32.toNat_ofNat'] at hbelow
          refine Or.inr ⟨hbase, ?_⟩
          rw [counter, if_pos hbase, UInt32.toNat_ofNat']
          have := index.changeIndex.toNat_lt
          omega
      rcases List.mem_cons.mp hlater with rfl | hlater
      · exact hnext
      · exact hnext.trans (hafter _ rfl later hlater)

/-! ### The run of a zone -/

/-- A run on a store, seen from one zone. -/
structure Run where
  /-- The store at the beginning. -/
  store : Store
  /-- The serial directory. -/
  directory : Path
  /-- The zone. -/
  zone : String
  /-- What happens. -/
  events : List Event

namespace Run

/-- The successful calls for the zone. -/
def successes (run : Run) : List Success :=
  Serial.successes run.directory run.zone run.store run.events

/-- The days of these calls. -/
def dates (run : Run) : List Date := run.successes.map (·.date)

/-- The serial numbers that were given out. -/
def texts (run : Run) : List String := run.successes.map (·.text)

/-- The index at the beginning. -/
def initial (run : Run) : Option SerialIndex := documented run.store run.directory run.zone

/-- The days never go back. -/
def IsForward (run : Run) : Prop :=
  run.dates.Pairwise fun date later => ¬later.IsBefore date

/-- The days are in years of four digits. -/
def HasFullYears (run : Run) : Prop := ∀ date ∈ run.dates, date.HasFullYear

/-- A run as it can be: the working directory exists, the serial directory has no links in it
    once it is made, and the zones have names that can name a file. -/
structure IsOrdinary (run : Run) : Prop where
  /-- The working directory exists. -/
  workingDirectory : run.store.IsSolid run.store.workingDirectory
  /-- There are no links in the serial directory. -/
  noLinks : ∀ d, (prepared run.store run.directory).directory run.directory = .ok d →
    ∀ name target, (prepared run.store run.directory).entryAt (d ++ [name]) ≠ some (.link target)
  /-- The zone can name a file. -/
  zone : '/' ∉ run.zone.toList
  /-- So can all zones that are called for. -/
  named : ∀ event ∈ run.events, event.IsNamed

/-- In a run as it can be, the texts and the indexes are computed from the days. -/
theorem outcomes_eq {run : Run} (h : run.IsOrdinary) :
    run.successes.map (fun s => (s.text, s.kept))
      = (indexes run.initial run.dates).map fun index => (index.serial, .ok (some index)) := by
  -- Where no call succeeds there is nothing to compute.
  have hnone : run.successes = [] → run.successes.map (fun s => (s.text, s.kept))
      = (indexes run.initial run.dates).map fun index => (index.serial, .ok (some index)) := by
    intro hnil
    rw [dates, hnil]
    rfl
  cases hmade : (ensureDirectory run.store run.directory).1 with
  -- The directory cannot be made, now or later.
  | error error =>
      exact hnone (successes_of_isBlocked ⟨h.workingDirectory.startOf _, error, hmade⟩ _ _)
  | ok _ =>
      rcases exists_directory_of_ensureDirectory
        (show ensureDirectory run.store run.directory
          = (.ok (), prepared run.store run.directory) by rw [← hmade]; rfl) with ⟨d, hd⟩
      have hserving : IsServing run.store run.directory d run.zone
          (current (prepared run.store run.directory) run.directory run.zone) :=
        ⟨hmade, ⟨hd, h.noLinks d hd⟩, rfl⟩
      cases hcurrent : current (prepared run.store run.directory) run.directory run.zone with
      -- The index cannot be read, so it is never replaced.
      | error error =>
          rw [hcurrent] at hserving
          exact hnone (successes_of_error hserving h.zone h.named)
      | ok previous =>
          have hinitial : run.initial = previous := documented_of_ok hcurrent
          rw [hcurrent] at hserving
          rw [hinitial]
          exact successes_of_isServing hserving h.zone h.named

theorem texts_eq {run : Run} (h : run.IsOrdinary) :
    run.texts = (indexes run.initial run.dates).map (·.serial) := by
  have hfirst := congrArg (List.map Prod.fst) (outcomes_eq h)
  rw [List.map_map, List.map_map] at hfirst
  exact hfirst

theorem pairwise_base {run : Run} (hforward : run.IsForward) (hyears : run.HasFullYears) :
    run.dates.Pairwise fun date later => date.base.toNat ≤ later.base.toNat := by
  refine List.Pairwise.imp_of_mem (fun {date later} hdate hlater hnot => ?_) hforward
  -- The numbers of days are in the order of the calendar.
  rw [← Date.base_lt_iff (hyears later hlater).isCounted (hyears date hdate).isCounted] at hnot
  exact Nat.not_lt.mp hnot

/-- A run in which a zone calls on these days, alone on an empty store. -/
def alone (dates : List Date) : Run where
  store := {}
  directory := ⟨"/"⟩
  zone := "z."
  events := dates.map fun date => .call "z." date (.seconds 5)

theorem prepared_root : prepared {} ⟨"/"⟩ = {} := prepared_of_directory (d := []) rfl

/-- Such a run can be. -/
theorem isOrdinary_alone (dates : List Date) : (alone dates).IsOrdinary where
  workingDirectory := Store.IsSolid.root _
  noLinks := by
    intro d hd name target he
    change (prepared {} ⟨"/"⟩).directory ⟨"/"⟩ = .ok d at hd
    change (prepared {} ⟨"/"⟩).entryAt (d ++ [name]) = _ at he
    rw [prepared_root] at hd he
    cases hd
    cases he
  zone := (by decide : '/' ∉ "z.".toList)
  named := by
    intro event he
    rcases List.mem_map.mp he with ⟨date, -, rfl⟩
    exact (by decide : '/' ∉ "z.".toList)

theorem dates_alone (dates : List Date) : (alone dates).dates = dates := by
  -- On an empty store nothing is in the way of the two files.
  have hopen : IsOpen {} ⟨"/"⟩ [] "z." := by
    refine ⟨⟨rfl, nofun⟩, by decide, ⟨rfl, by decide, nofun⟩, ⟨rfl, by decide, nofun⟩, rfl, rfl, ?_⟩
    exact ⟨none, rfl⟩
  exact hopen.dates_successes (.seconds 5) dates

theorem initial_alone (dates : List Date) : (alone dates).initial = none := by
  have hcurrent : current (prepared {} ⟨"/"⟩) ⟨"/"⟩ "z." = .ok none := by
    rw [prepared_root]
    rfl
  exact documented_of_ok hcurrent

/-- The law of a run. Each successful call gives out the day of the call, followed by the counter
    with at least two digits, and right after it the index is just that day and counter. The
    counter is one more than that of the zone's call before if that was on the same day, up to the
    largest number of 32 bits, and otherwise one. Therefore no serial number is given out twice, if
    there was no index at first, the days never go back and the counter never reaches its cap. -/
theorem law {run : Run} (h : run.IsOrdinary) :
    run.successes.map (fun s => (s.text, s.kept))
        = (indexes run.initial run.dates).map (fun index =>
          (Numeral.decimal index.base.toNat ++ Numeral.padded 2 index.changeIndex.toNat,
            .ok (some index)))
      ∧ (run.initial = none → run.HasFullYears → run.IsForward →
        (∀ index ∈ indexes none run.dates, index.changeIndex.toNat < 2 ^ 32 - 1) →
          run.texts.Nodup) := by
  refine ⟨outcomes_eq h, fun hinitial hyears hforward hcap => ?_⟩
  have hpairwise := (pairwise_indexes (pairwise_base hforward hyears)
    (fun index hindex => absurd hindex (Option.not_mem_none index)) hcap).1
  -- In years of four digits a text determines its index.
  have hfull : ∀ index ∈ indexes none run.dates, index.HasFullBase := by
    intro index hindex
    rcases exists_date_of_mem_indexes hindex with ⟨date, hdate, hbase⟩
    rw [SerialIndex.HasFullBase, hbase]
    exact SerialIndex.hasFullBase_of_hasFullYear (hyears date hdate) index.changeIndex
  rw [texts_eq h, hinitial, List.Nodup, List.pairwise_map]
  -- Equal texts would be equal indexes, and none comes before itself.
  refine List.Pairwise.imp_of_mem (fun {index later} hindex hlater hprecedes heq => ?_) hpairwise
  have hsame := SerialIndex.serial_injective (hfull index hindex) (hfull later hlater) heq
  rw [hsame] at hprecedes
  rcases hprecedes with hlt | ⟨-, hlt⟩
  · exact Nat.lt_irrefl _ hlt
  · exact Nat.lt_irrefl _ hlt

/-- The 3rd of September 2025. -/
def third : Date := ⟨2025, 9, 3, by decide, by decide⟩

/-- The 4th of September 2025. -/
def fourth : Date := ⟨2025, 9, 4, by decide, by decide⟩

/-- Two calls on one day and one on the next. -/
theorem law_alone :
    (alone [third, third, fourth]).IsOrdinary ∧ (alone [third, third, fourth]).texts.Nodup
      ∧ (alone [third, third, fourth]).successes.map (fun s => (s.text, s.kept))
        = [("2025090301", .ok (some ⟨20250903, 1⟩)), ("2025090302", .ok (some ⟨20250903, 2⟩)),
          ("2025090401", .ok (some ⟨20250904, 1⟩))] := by
  have hrun := isOrdinary_alone [third, third, fourth]
  have hdates := dates_alone [third, third, fourth]
  rcases law hrun with ⟨houtcomes, honce⟩
  refine ⟨hrun, honce (initial_alone _) ?_ ?_ ?_, houtcomes.trans ?_⟩
  · rw [HasFullYears, hdates]
    decide
  · rw [IsForward, hdates]
    decide
  · rw [hdates]
    decide
  · rw [initial_alone, hdates]
    rfl

end Run

end Serial

end DnsZones
