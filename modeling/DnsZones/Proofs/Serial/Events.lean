import DnsZones.Proofs.Serial.Calls

/-!
# Events

What a zone is given when many call at once.

Any number of processes may call for serial numbers in one directory. Because of
the lock their calls come one after another, so a run is a list of events: calls
for this zone and for others, with any date and any patience, and locks that
somebody takes and releases in between. A call that finds a lock held fails.

Seen from one zone a run is nothing but the dates of its own successful calls.
Everything else leaves its index as it was, which is the invariant here; what the
zone was given and what its index was after each call can be computed from these
dates and from the index at the beginning.

## Main definitions

* `Serial.Event`: What happens to a serial directory.
* `Serial.successes`: The successful calls of a zone in a run.
* `Serial.documented`: The index of a zone at the beginning.
* `Serial.indexes`: The indexes that calls on these days get.
* `Serial.IsServing`: A store in which a zone has an index.

## Theorems

* `Serial.IsServing.step`: What one event does to the index of a zone.
* `Serial.IsBlocked.step`: A directory that cannot be made is never made.
* `Serial.successes_of_isServing`: The successful calls of a zone that has an index.
* `Serial.successes_of_isBlocked`, `Serial.successes_of_error`: When there are none.
-/

namespace DnsZones

namespace Serial

/-- What happens to a serial directory. -/
inductive Event where
  /-- Somebody calls for the next serial number of a zone. -/
  | call (zone : String) (today : Date) (timeout : Duration)
  /-- Somebody takes or releases the lock on a file. -/
  | lock (location : Location) (held : Bool)

/-- The zone that is called for has a name that can name a file. -/
def Event.IsNamed : Event → Prop
  | call zone _ _ => '/' ∉ zone.toList
  | lock _ _ => True

/-- The store after an event. -/
def Event.after (store : Store) (directory : Path) : Event → Store
  | call zone today timeout => (next store today timeout directory zone).2
  | lock location held => store.setLocked location held

/-- A call that succeeded. -/
structure Success where
  /-- The day of the call. -/
  date : Date
  /-- The serial number that was given out. -/
  text : String
  /-- The index of the zone right after the call. -/
  kept : Except SerialError (Option SerialIndex)

/-- The successful call for a zone that an event is, if it is one. -/
def success? (store : Store) (directory : Path) (zone : String) : Event → Option Success
  | .call called today timeout =>
    if called = zone then
      match next store today timeout directory zone with
      | (.ok text, after) => some ⟨today, text, current after directory zone⟩
      | (.error _, _) => none
    else none
  | .lock _ _ => none

/-- The successful calls for a zone in a run. -/
def successes (directory : Path) (zone : String) : Store → List Event → List Success
  | _, [] => []
  | store, event :: events =>
    (success? store directory zone event).toList
      ++ successes directory zone (event.after store directory) events

/-- The index of a zone once the serial directory is made, if it has one. -/
def documented (store : Store) (directory : Path) (zone : String) : Option SerialIndex :=
  match current (prepared store directory) directory zone with
  | .ok previous => previous
  | .error _ => none

/-- The counter of a call that follows another one, or none. -/
def counter (previous : Option SerialIndex) (day : UInt32) : Nat :=
  match previous with
  | some index => if index.base = day then min (index.changeIndex.toNat + 1) (2 ^ 32 - 1) else 1
  | none => 1

/-- The indexes that calls on these days get, one after another. -/
def indexes (previous : Option SerialIndex) : List Date → List SerialIndex
  | [] => []
  | date :: dates =>
    let index : SerialIndex := ⟨date.base, UInt32.ofNat (counter previous date.base)⟩
    index :: indexes (some index) dates

variable {store : Store} {directory : Path} {d : Location} {zone : String} {event : Event}
  {document : Except SerialError (Option SerialIndex)} {previous : Option SerialIndex}

theorem documented_of_ok
    (h : current (prepared store directory) directory zone = .ok previous) :
    documented store directory zone = previous := by
  unfold documented
  rw [h]

/-- A step of an index, in numbers. -/
theorem advance_eq (previous : Option SerialIndex) (day : UInt32) :
    SerialIndex.advance previous day = ⟨day, UInt32.ofNat (counter previous day)⟩ := by
  cases previous with
  | none => rfl
  | some index =>
      rw [SerialIndex.advance, counter]
      split
      · have hcounter : SerialIndex.increment index.changeIndex
            = UInt32.ofNat (min (index.changeIndex.toNat + 1) (2 ^ 32 - 1)) := by
          have hlt := index.changeIndex.toNat_lt
          rw [SerialIndex.increment, ← UInt32.toNat_inj, UInt32.toNat_ofNat', UInt32.size]
          split
          · rw [UInt32.toNat_add, UInt32.toNat_one]
            omega
          · omega
        rw [hcounter]
      · rfl

/-! ### Directories that can be made -/

/-- The serial directory of a store can be made and has no links in it, and the index of a zone
    in it is known. -/
structure IsServing (store : Store) (directory : Path) (d : Location) (zone : String)
    (document : Except SerialError (Option SerialIndex)) : Prop where
  /-- The directory can be made. -/
  made : (ensureDirectory store directory).1 = .ok ()
  /-- There are no links in it. -/
  plain : (prepared store directory).IsPlainDirectory directory d
  /-- The index of the zone. -/
  current : Serial.current (prepared store directory) directory zone = document

namespace IsServing

theorem of_plain (h : store.IsPlainDirectory directory d)
    (hc : Serial.current store directory zone = document) :
    IsServing store directory d zone document := by
  have hsame := prepared_of_directory h.directory
  exact ⟨by rw [ensureDirectory_of_directory h.directory], hsame.symm ▸ h, hsame.symm ▸ hc⟩

/-- Two stores that are equal without their locks have the same index. -/
theorem of_unlocked {other : Store} (h : IsServing store directory d zone document)
    (hu : other.unlocked = store.unlocked) : IsServing other directory d zone document := by
  have hensure := ensureDirectory_unlocked other directory
  rw [hu, ensureDirectory_unlocked store directory, Prod.mk.injEq] at hensure
  rcases hensure with ⟨hmade, hprepared⟩
  refine ⟨hmade.symm.trans h.made, ?_, ?_⟩
  · have hplain := h.plain.unlocked
    rw [hprepared] at hplain
    exact hplain.of_unlocked
  · rw [← current_unlocked, ← hprepared, current_unlocked]
    exact h.current

/-- What one event does to the index of a zone. Only a successful call for the zone changes it,
    and then both the serial number and the new index are the next ones. -/
theorem step (h : IsServing store directory d zone document) (hz : '/' ∉ zone.toList)
    (hn : event.IsNamed) :
    success? store directory zone event = none
        ∧ IsServing (event.after store directory) directory d zone document
      ∨ ∃ previous today, document = .ok previous
        ∧ success? store directory zone event
          = some ⟨today, (SerialIndex.advance previous today.base).serial,
            .ok (some (SerialIndex.advance previous today.base))⟩
        ∧ IsServing (event.after store directory) directory d zone
          (.ok (some (SerialIndex.advance previous today.base))) := by
  cases event with
  | lock location held =>
      exact Or.inl ⟨rfl, h.of_unlocked (Store.unlocked_setLocked store location held)⟩
  | call called today timeout =>
      cases hcall : next store today timeout directory called with
      | mk result after =>
          have hprepared := hcall
          rw [next_prepared h.made] at hprepared
          rcases next_spec h.plain hn hprepared with ⟨hplain, hothers, hown⟩
          have hafter : (Event.call called today timeout).after store directory = after := by
            rw [Event.after, hcall]
          rw [hafter]
          by_cases hc : called = zone
          · subst hc
            rw [h.current] at hown
            rcases hown with ⟨⟨error, rfl⟩, hsame⟩ | ⟨previous, hprevious, rfl, hkept⟩
            · refine Or.inl ⟨?_, of_plain hplain hsame⟩
              simp only [success?, if_true, hcall]
            · refine Or.inr ⟨previous, today, hprevious, ?_, of_plain hplain hkept⟩
              simp only [success?, if_true, hcall, hkept]
          · refine Or.inl ⟨?_, of_plain hplain ?_⟩
            · rw [success?, if_neg hc]
            · rw [hothers zone hz fun he => hc he.symm, h.current]

end IsServing

/-! ### Directories that cannot be made -/

/-- The serial directory of a store cannot be made. -/
structure IsBlocked (store : Store) (directory : Path) : Prop where
  /-- Its path starts in a directory that exists. -/
  solid : store.IsSolid (Store.startOf store.workingDirectory directory)
  /-- Making the directory fails. -/
  failed : ∃ error, (ensureDirectory store directory).1 = .error error

namespace IsBlocked

/-- Two stores that are equal without their locks have the same directories. -/
theorem of_unlocked {other : Store} (h : IsBlocked store directory)
    (hu : other.unlocked = store.unlocked) : IsBlocked other directory := by
  have hensure := ensureDirectory_unlocked other directory
  rw [hu, ensureDirectory_unlocked store directory, Prod.mk.injEq] at hensure
  have hworking : other.unlocked.workingDirectory = store.unlocked.workingDirectory := by rw [hu]
  refine ⟨?_, ?_⟩
  · change other.IsSolid (Store.startOf other.unlocked.workingDirectory directory)
    rw [hworking]
    exact h.solid.of_unlocked hu
  · rw [← hensure.1]
    exact h.failed

/-- A directory that cannot be made is never made, and no call succeeds. -/
theorem step (h : IsBlocked store directory) (zone : String) (event : Event) :
    success? store directory zone event = none
      ∧ IsBlocked (event.after store directory) directory := by
  cases event with
  | lock location held => exact ⟨rfl, h.of_unlocked (Store.unlocked_setLocked store location held)⟩
  | call called today timeout =>
      rcases h.failed with ⟨error, hfailed⟩
      have hnext := fun called => next_of_error hfailed today timeout called
      have hafter : (Event.call called today timeout).after store directory
          = prepared store directory := by rw [Event.after, hnext]
      have hx := extends_prepared store directory
      rcases ensureDirectory_retry h.solid
        (show ensureDirectory store directory = (.error error, prepared store directory) by
          rw [← hfailed]
          rfl) with ⟨again, hagain⟩
      rw [hafter]
      refine ⟨?_, ?_, again, by rw [hagain]⟩
      · rw [success?, hnext]
        exact ite_self _
      · rw [hx.workingDirectory]
        exact h.solid.of_extends hx

end IsBlocked

/-! ### Whole runs -/

/-- In a directory that cannot be made no call ever succeeds. -/
theorem successes_of_isBlocked (h : IsBlocked store directory) (zone : String)
    (events : List Event) : successes directory zone store events = [] := by
  induction events generalizing store with
  | nil => rfl
  | cons event events ih =>
      -- The invariant is that the directory still cannot be made.
      rcases h.step zone event with ⟨hnone, hafter⟩
      rw [successes, hnone, ih hafter]
      rfl

/-- The successful calls for a zone whose index can be read: the texts and the indexes are
    computed from the dates. -/
theorem successes_of_isServing {events : List Event}
    (h : IsServing store directory d zone (.ok previous)) (hz : '/' ∉ zone.toList)
    (hn : ∀ event ∈ events, event.IsNamed) :
    (successes directory zone store events).map (fun s => (s.text, s.kept))
      = (indexes previous ((successes directory zone store events).map (·.date))).map
        fun index => (index.serial, .ok (some index)) := by
  induction events generalizing store previous with
  | nil => rfl
  | cons event events ih =>
      have hrest : ∀ event ∈ events, event.IsNamed := fun e he => hn e (List.mem_cons_of_mem _ he)
      rw [successes]
      -- The invariant is the index so far, from which the rest of the run is computed.
      rcases h.step hz (hn event List.mem_cons_self) with
        ⟨hnone, hafter⟩ | ⟨last, today, hlast, hsome, hafter⟩
      · rw [hnone]
        exact ih hafter hrest
      · cases hlast
        rw [hsome]
        have htail := ih hafter hrest
        rw [advance_eq] at htail
        simp only [Option.toList_some, List.singleton_append, List.map_cons, indexes, advance_eq,
          htail]

/-- No call for a zone whose index cannot be read succeeds. -/
theorem successes_of_error {events : List Event} {error : SerialError}
    (h : IsServing store directory d zone (.error error)) (hz : '/' ∉ zone.toList)
    (hn : ∀ event ∈ events, event.IsNamed) : successes directory zone store events = [] := by
  induction events generalizing store with
  | nil => rfl
  | cons event events ih =>
      have hrest : ∀ event ∈ events, event.IsNamed := fun e he => hn e (List.mem_cons_of_mem _ he)
      rcases h.step hz (hn event List.mem_cons_self) with ⟨hnone, hafter⟩ | ⟨last, today, hlast, -⟩
      · rw [successes, hnone, ih hafter hrest]
        rfl
      · -- A call that succeeded would have read the index.
        cases hlast

end Serial

end DnsZones
