import DnsZones.Proofs.Serial.Events
import DnsZones.Proofs.Store.Agreement

/-!
# Calls for Different Zones

What a call for one zone means to another zone.

A call reads and writes the two files of its own zone. As long as two stores hold
the same under these names, the call gives the same in both, whatever calls for
other zones were made in either before. This takes two statements: calls for the
zone keep the stores alike, and calls for other zones, in one of the stores only,
do so too.

The serial directory is the one thing that zones have in common. If it can be
made then it does not matter who makes it first. If it cannot, every call fails,
and only the words of the system may differ: the first failure can leave behind
some of the directories on the way, and those can be what stops the second.

## Main definitions

* `SerialError.mapCause`: An error with the words of the system about the directory changed.
* `Serial.IsFileOf`: The names of a zone's files.
* `Serial.IsOrderly`: What is assumed of a serial directory.
* `Serial.IsReached`: What calls can have left of a store.
* `Serial.Keeps`: The index of a zone is in its place.
* `Serial.IsAlike`: Two stores in which a zone is given the same.
* `Serial.Overlooks`: A first failure to make the directory is not told from a later one.

## Theorems

* `Serial.next_congr`: A call depends on the files of its own zone only.
* `Serial.agreeOn_next`: A call changes no file of another zone.
* `Serial.IsReached.keeps_of_next`: A call that succeeds leaves its index in its place.
* `Serial.Keeps.next_other`: Calls for other zones leave it there.
* `Serial.IsOrderly.isAlike`: A store is like itself.
* `Serial.IsAlike.next`: Calls for the zone give the same and keep the stores alike.
* `Serial.IsAlike.next_other`: Calls for other zones keep the stores alike.
-/

namespace DnsZones

/-- An error in which the words of the system about the serial directory are changed. -/
def SerialError.mapCause (f : SystemError → SystemError) : SerialError → SerialError
  | .createDirectory path cause => .createDirectory path (f cause)
  | .lockTimeout path timeout => .lockTimeout path timeout
  | .lock path cause => .lock path cause
  | .read path cause => .read path cause
  | .parse path => .parse path
  | .write path cause => .write path cause

namespace Serial

variable {start store other after : Store} {directory : Path} {d : Location} {zone called : String}
  {timeout : Duration} {today : Date} {f : SystemError → SystemError}

/-- The names of a zone's two files. -/
def IsFileOf (zone name : String) : Prop := name = indexName zone ∨ name = lockName zone

theorem lockName_ne (h : zone ≠ called) : lockName zone ≠ lockName called := fun he =>
  h (String.append_left_inj ".serial.lock" |>.mp he)

theorem not_isFileOf_indexName (h : called ≠ zone) : ¬IsFileOf zone (indexName called) := by
  rintro (he | he)
  · exact indexName_ne h he
  · exact indexName_ne_lockName called zone he

theorem not_isFileOf_lockName (h : called ≠ zone) : ¬IsFileOf zone (lockName called) := by
  rintro (he | he)
  · exact indexName_ne_lockName zone called he.symm
  · exact lockName_ne h he

/-! ### The parts of a call -/

theorem advanceIndex_of_ok {path : Path} {previous : Option SerialIndex}
    (h : readIndex store path = .ok previous) (today : Date) (directory : Path) :
    let index := SerialIndex.advance previous today.base
    advanceIndex store today directory path
      = (((store.replaceFile directory path index.document.toUTF8).1.mapError
          (SerialError.write path)).map fun _ => index,
        (store.replaceFile directory path index.document.toUTF8).2) := by
  dsimp only
  rcases hr : store.replaceFile directory path
    (SerialIndex.advance previous today.base).document.toUTF8 with ⟨result, written⟩
  cases result with
  | error cause => simp only [advanceIndex, h, hr, Except.mapError, Except.map]
  | ok _ => simp only [advanceIndex, h, hr, Except.mapError, Except.map]

/-- The lock is released whether the index could be advanced or not. -/
theorem next_of_acquire {lock : Location} {opened : Store} (hd : store.directory directory = .ok d)
    (ha : acquire store (lockPath directory zone) timeout = (.ok lock, opened)) :
    next store today timeout directory zone
      = ((advanceIndex opened today directory (indexPath directory zone)).1.map
          SerialIndex.serial,
        (advanceIndex opened today directory (indexPath directory zone)).2.setLocked lock
          false) := by
  rcases hi : advanceIndex opened today directory (indexPath directory zone) with ⟨result, written⟩
  cases result with
  | error error => simp only [next, ensureDirectory_of_directory hd, ha, hi, Except.map]
  | ok index => simp only [next, ensureDirectory_of_directory hd, ha, hi, Except.map]

theorem next_of_acquire_error {error : SerialError} {opened : Store}
    (hd : store.directory directory = .ok d)
    (ha : acquire store (lockPath directory zone) timeout = (.error error, opened)) :
    next store today timeout directory zone = (.error error, opened) := by
  simp only [next, ensureDirectory_of_directory hd, ha]

/-! ### The same call in two stores -/

theorem acquire_congr (h : Store.AgreeOn (IsFileOf zone) directory d store other)
    (hz : '/' ∉ zone.toList) (timeout : Duration) :
    ∃ result opened opened', acquire store (lockPath directory zone) timeout = (result, opened)
      ∧ acquire other (lockPath directory zone) timeout = (result, opened')
      ∧ Store.AgreeOn (IsFileOf zone) directory d opened opened'
      ∧ ∀ lock, result = .ok lock → lock = d ++ [lockName zone] := by
  have hfile : IsFileOf zone (lockName zone) := Or.inr rfl
  rw [acquire, acquire, lockPath_eq directory hz]
  rcases h.openLock (isEntryName_lockName hz) hfile with
    ⟨error, ho, ho'⟩ | ⟨opened, opened', ho, ho', hopened⟩
  · rw [ho, ho']
    refine ⟨_, _, _, rfl, rfl, h, fun lock hl => ?_⟩
    cases hl
  · simp only [ho, ho', hopened.isLocked hfile]
    split
    · refine ⟨_, _, _, rfl, rfl, hopened, fun lock hl => ?_⟩
      cases hl
    · exact ⟨_, _, _, rfl, rfl, hopened.setLocked hfile true, fun lock hl =>
        (Except.ok.inj hl).symm⟩

theorem advanceIndex_congr (h : Store.AgreeOn (IsFileOf zone) directory d store other)
    (hz : '/' ∉ zone.toList) (today : Date) :
    (advanceIndex store today directory (indexPath directory zone)).1
        = (advanceIndex other today directory (indexPath directory zone)).1
      ∧ Store.AgreeOn (IsFileOf zone) directory d
        (advanceIndex store today directory (indexPath directory zone)).2
        (advanceIndex other today directory (indexPath directory zone)).2 := by
  have hname := isEntryName_indexName hz
  have hfile : IsFileOf zone (indexName zone) := Or.inl rfl
  have htext : store.readText (indexPath directory zone)
      = other.readText (indexPath directory zone) := h.readText hname hfile
  have hread : readIndex store (indexPath directory zone)
      = readIndex other (indexPath directory zone) := by
    rw [readIndex, readIndex, htext]
  cases hr : readIndex other (indexPath directory zone) with
  | error error =>
      rw [hr] at hread
      simp only [advanceIndex, hread, hr]
      exact ⟨trivial, h⟩
  | ok previous =>
      rw [hr] at hread
      have hreplace := h.replaceFile hname hfile (indexName_ne_unusedName store zone)
        (indexName_ne_unusedName other zone)
        (SerialIndex.advance previous today.base).document.toUTF8
      have hpath : indexPath directory zone = directory.join (indexName zone) := rfl
      rw [advanceIndex_of_ok hread, advanceIndex_of_ok hr, hpath]
      exact ⟨by simp only [hreplace.1], hreplace.2⟩

/-- In a plain directory a call depends on nothing but the files of its own zone. -/
theorem next_congr (h : Store.AgreeOn (IsFileOf zone) directory d store other)
    (hz : '/' ∉ zone.toList) (today : Date) (timeout : Duration) :
    (next store today timeout directory zone).1 = (next other today timeout directory zone).1
      ∧ Store.AgreeOn (IsFileOf zone) directory d (next store today timeout directory zone).2
        (next other today timeout directory zone).2 := by
  rcases acquire_congr h hz timeout with ⟨result, opened, opened', ha, ha', hopened, hlock⟩
  cases result with
  | error error =>
      rw [next_of_acquire_error h.left.directory ha, next_of_acquire_error h.right.directory ha']
      exact ⟨rfl, hopened⟩
  | ok lock =>
      have hadvance := advanceIndex_congr hopened hz today
      rw [next_of_acquire h.left.directory ha, next_of_acquire h.right.directory ha',
        hlock lock rfl]
      exact ⟨congrArg (Except.map SerialIndex.serial) hadvance.1,
        hadvance.2.setLocked (Or.inr rfl) false⟩

/-! ### A call for another zone -/

theorem agreeOn_acquire (h : store.IsPlainDirectory directory d) (hc : '/' ∉ called.toList)
    (hne : called ≠ zone) {result : Except SerialError Location}
    (ha : acquire store (lockPath directory called) timeout = (result, after)) :
    Store.AgreeOn (IsFileOf zone) directory d after store
      ∧ ∀ lock, result = .ok lock → lock = d ++ [lockName called] := by
  have hother := not_isFileOf_lockName hne
  rw [acquire, lockPath_eq directory hc] at ha
  cases ho : store.openLock (directory.join (lockName called)) with
  | error cause =>
      rw [ho] at ha
      cases ha
      refine ⟨.refl h, fun lock hl => ?_⟩
      cases hl
  | ok found =>
      rcases found with ⟨location, opened⟩
      rcases Store.openLock_join h (isEntryName_lockName hc) ho with ⟨rfl, hopened⟩
      have hsame : Store.AgreeOn (IsFileOf zone) directory d opened store := by
        rcases hopened with ⟨rfl, -⟩ | ⟨hnone, rfl⟩
        · exact .refl h
        · refine Store.agreeOn_put h hother (fun he => ?_) _
          rw [hnone] at he
          cases he
      rw [ho] at ha
      dsimp only at ha
      split at ha
      · cases ha
        refine ⟨hsame, fun lock hl => ?_⟩
        cases hl
      · cases ha
        exact ⟨(Store.agreeOn_setLocked hsame.left hother true).trans hsame,
          fun lock hl => (Except.ok.inj hl).symm⟩

theorem agreeOn_advanceIndex (h : store.IsPlainDirectory directory d) (hc : '/' ∉ called.toList)
    (hne : called ≠ zone) (today : Date) :
    Store.AgreeOn (IsFileOf zone) directory d
      (advanceIndex store today directory (indexPath directory called)).2 store := by
  cases hr : readIndex store (indexPath directory called) with
  | error error =>
      simp only [advanceIndex, hr]
      exact .refl h
  | ok previous =>
      rw [advanceIndex_of_ok hr]
      exact Store.agreeOn_replaceFile h (isEntryName_indexName hc)
        (not_isFileOf_indexName hne) _

/-- In a plain directory a call changes no file of another zone. -/
theorem agreeOn_next (h : store.IsPlainDirectory directory d) (hc : '/' ∉ called.toList)
    (hne : called ≠ zone) (today : Date) (timeout : Duration) :
    Store.AgreeOn (IsFileOf zone) directory d (next store today timeout directory called).2
      store := by
  rcases ha : acquire store (lockPath directory called) timeout with ⟨result, opened⟩
  rcases agreeOn_acquire h hc hne ha with ⟨hopened, hlock⟩
  cases result with
  | error error =>
      rw [next_of_acquire_error h.directory ha]
      exact hopened
  | ok lock =>
      have hwritten := agreeOn_advanceIndex hopened.left hc hne today
      rw [next_of_acquire h.directory ha, hlock lock rfl]
      exact (Store.agreeOn_setLocked hwritten.left (not_isFileOf_lockName hne) false).trans
        (hwritten.trans hopened)

/-! ### Directories that cannot be made -/

/-- The words about a first failure to make the directory become those about a later one. -/
def Overlooks (f : SystemError → SystemError) (start : Store) (directory : Path) : Prop :=
  ∀ first later, (ensureDirectory start directory).1 = .error (.createDirectory directory first) →
    (ensureDirectory (prepared start directory) directory).1
      = .error (.createDirectory directory later) → f first = f later

theorem exists_cause_of_error {error : SerialError}
    (h : (ensureDirectory store directory).1 = .error error) :
    ∃ cause, error = .createDirectory directory cause := by
  rw [ensureDirectory_eq] at h
  rcases hm : store.makeDirectories directory with ⟨result, made⟩
  rw [hm] at h
  cases result with
  | ok _ => cases h
  | error cause =>
      cases h
      exact ⟨cause, rfl⟩

/-- In a directory that cannot be made all calls give the same, but for the words of the system,
    and leave behind what the first attempt did. -/
theorem IsBlocked.next (h : IsBlocked start directory) (hf : Overlooks f start directory) :
    ∃ error, ∀ store, store = start ∨ store = prepared start directory →
      ∀ today timeout zone,
        (next store today timeout directory zone).1.mapError (SerialError.mapCause f) = .error error
          ∧ (next store today timeout directory zone).2 = prepared start directory := by
  rcases h.failed with ⟨error, hfirst⟩
  rcases exists_cause_of_error hfirst with ⟨first, rfl⟩
  have hfailed : ensureDirectory start directory
      = (.error (.createDirectory directory first), prepared start directory) := by
    rw [← hfirst]
    rfl
  rcases ensureDirectory_retry h.solid hfailed with ⟨error, hagain⟩
  have hlater : (ensureDirectory (prepared start directory) directory).1 = .error error := by
    rw [hagain]
  rcases exists_cause_of_error hlater with ⟨later, rfl⟩
  have hsame := hf first later hfirst hlater
  refine ⟨.createDirectory directory (f first), fun store hs today timeout zone => ?_⟩
  rcases hs with rfl | rfl
  · rw [next_of_error hfirst]
    exact ⟨rfl, rfl⟩
  · rw [next_of_error hlater, prepared, hagain, hsame]
    exact ⟨rfl, rfl⟩

/-! ### What calls leave behind -/

/-- A serial directory as it can be: it is that of a settled configuration, and there are no links
    in it once it is made. -/
structure IsOrderly (store : Store) (directory : Path) : Prop where
  /-- The path is absolute, as it is in every settled configuration. -/
  isAbsolute : directory.isAbsolute = true
  /-- There are no links in the serial directory. -/
  noLinks : ∀ d, (prepared store directory).directory directory = .ok d →
    ∀ name target, (prepared store directory).entryAt (d ++ [name]) ≠ some (.link target)

/-- The root directory of an empty store can be the serial directory. -/
theorem isOrderly_root : IsOrderly {} ⟨"/"⟩ where
  isAbsolute := by decide
  noLinks := by
    have hroot : prepared {} ⟨"/"⟩ = {} := prepared_of_directory (d := []) rfl
    intro d hd name target he
    rw [hroot] at hd he
    cases hd
    cases he

/-- What calls can have left of a store: the directory can be made and has no links in it, or it
    cannot be made. -/
inductive IsReached (store : Store) (directory : Path) : Prop where
  | made {d : Location} (h : (ensureDirectory store directory).1 = .ok ())
    (plain : (prepared store directory).IsPlainDirectory directory d)
  | blocked (h : IsBlocked store directory)

/-- The index of a zone is in its place. -/
def Keeps (directory : Path) (zone : String) (index : SerialIndex) (store : Store) : Prop :=
  ∃ d, store.IsPlainDirectory directory d ∧ current store directory zone = .ok (some index)

/-- Where it cannot be made it never can, whatever the working directory is. -/
theorem IsOrderly.isBlocked (h : IsOrderly store directory) {error : SerialError}
    (hfailed : (ensureDirectory store directory).1 = .error error) : IsBlocked store directory := by
  refine ⟨?_, error, hfailed⟩
  rw [Store.startOf, if_pos h.isAbsolute]
  exact Store.IsSolid.root store

theorem IsOrderly.isReached (h : IsOrderly store directory) : IsReached store directory := by
  cases hmade : (ensureDirectory store directory).1 with
  | error error => exact .blocked (h.isBlocked hmade)
  | ok _ =>
      rcases exists_directory_of_ensureDirectory
        (show ensureDirectory store directory = (.ok (), prepared store directory) by
          rw [← hmade]
          rfl) with ⟨d, hd⟩
      exact .made hmade ⟨hd, h.noLinks d hd⟩

namespace IsReached

theorem of_plain (h : store.IsPlainDirectory directory d) : IsReached store directory := by
  refine .made (d := d) (by rw [ensureDirectory_of_directory h.directory]) ?_
  rwa [prepared_of_directory h.directory]

/-- One more call. -/
theorem next (h : IsReached store directory) (hc : '/' ∉ called.toList) (today : Date)
    (timeout : Duration) : IsReached (next store today timeout directory called).2 directory := by
  cases h with
  | made hmade plain =>
      rw [next_prepared hmade]
      exact of_plain (next_spec plain hc rfl).1
  | blocked hb => exact .blocked (hb.step called (.call called today timeout)).2

/-- A call that succeeds leaves the index that it has the serial number of. -/
theorem keeps_of_next (h : IsReached store directory) (hz : '/' ∉ zone.toList) {text : String}
    (hn : Serial.next store today timeout directory zone = (.ok text, after)) :
    ∃ index, text = index.serial ∧ Keeps directory zone index after := by
  cases h with
  | made hmade plain =>
      rw [next_prepared hmade] at hn
      rcases next_spec plain hz hn
        with ⟨hafter, -, ⟨⟨error, herror⟩, -⟩ | ⟨previous, -, htext, hkept⟩⟩
      · cases herror
      · exact ⟨_, Except.ok.inj htext, _, hafter, hkept⟩
  | blocked hb =>
      rcases hb.failed with ⟨error, herror⟩
      rw [next_of_error herror] at hn
      cases hn

end IsReached

/-- A call for another zone leaves an index in its place. -/
theorem Keeps.next_other {index : SerialIndex} (h : Keeps directory zone index store)
    (hz : '/' ∉ zone.toList) (hc : '/' ∉ called.toList) (hne : called ≠ zone) (today : Date)
    (timeout : Duration) :
    Keeps directory zone index (next store today timeout directory called).2 := by
  rcases h with ⟨d, hplain, hcurrent⟩
  rcases hcall : next store today timeout directory called with ⟨result, after⟩
  rcases next_spec hplain hc hcall with ⟨hafter, hothers, -⟩
  exact ⟨d, hafter, (hothers zone hz hne.symm).trans hcurrent⟩

/-! ### Stores that are alike -/

/-- Two stores that calls left behind on their way from a common one, and in which a zone is given
    the same: either the directory can be made and the files of the zone are the same, or it
    cannot and there is nothing in it. -/
inductive IsAlike (start : Store) (directory : Path) (zone : String) (store other : Store) :
    Prop where
  | served {d : Location} (left : (ensureDirectory store directory).1 = .ok ())
    (right : (ensureDirectory other directory).1 = .ok ())
    (agree : Store.AgreeOn (IsFileOf zone) directory d (prepared store directory)
      (prepared other directory))
  | blocked (h : IsBlocked start directory)
    (left : store = start ∨ store = prepared start directory)
    (right : other = start ∨ other = prepared start directory)

/-- A store is like itself. -/
theorem IsOrderly.isAlike (h : IsOrderly store directory) (zone : String) :
    IsAlike store directory zone store store := by
  cases h.isReached with
  | made hmade plain => exact .served hmade hmade (.refl plain)
  | blocked hb => exact .blocked hb (Or.inl rfl) (Or.inl rfl)

namespace IsAlike

theorem symm (h : IsAlike start directory zone store other) :
    IsAlike start directory zone other store := by
  cases h with
  | served left right agree => exact .served right left agree.symm
  | blocked hb left right => exact .blocked hb right left

/-- Stores in which the directory is there. -/
theorem of_agreeOn (h : Store.AgreeOn (IsFileOf zone) directory d store other) :
    IsAlike start directory zone store other := by
  have hl := h.left.directory
  have hr := h.right.directory
  refine .served (d := d) (by rw [ensureDirectory_of_directory hl])
    (by rw [ensureDirectory_of_directory hr]) ?_
  rwa [prepared_of_directory hl, prepared_of_directory hr]

/-- A call for the zone gives the same in both, but for the words of the system, and they stay
    alike. -/
theorem next (h : IsAlike start directory zone store other) (hz : '/' ∉ zone.toList)
    (hf : Overlooks f start directory) (today : Date) (timeout : Duration) :
    (Serial.next store today timeout directory zone).1.mapError (SerialError.mapCause f)
        = (Serial.next other today timeout directory zone).1.mapError (SerialError.mapCause f)
      ∧ IsAlike start directory zone (Serial.next store today timeout directory zone).2
        (Serial.next other today timeout directory zone).2 := by
  cases h with
  | served left right agree =>
      rw [next_prepared left, next_prepared right]
      rcases next_congr agree hz today timeout with ⟨hresult, hafter⟩
      exact ⟨congrArg _ hresult, .of_agreeOn hafter⟩
  | blocked hb left right =>
      rcases hb.next hf with ⟨error, hall⟩
      rcases hall store left today timeout zone with ⟨hresult, hafter⟩
      rcases hall other right today timeout zone with ⟨hresult', hafter'⟩
      exact ⟨hresult.trans hresult'.symm, .blocked hb (Or.inr hafter) (Or.inr hafter')⟩

/-- A call for another zone, in one of the two only, keeps them alike. -/
theorem next_other (h : IsAlike start directory zone store other) (hc : '/' ∉ called.toList)
    (hne : called ≠ zone) (today : Date) (timeout : Duration) :
    IsAlike start directory zone (Serial.next store today timeout directory called).2 other := by
  cases h with
  | @served d left right agree =>
      -- The other store is seen with the directory made, which is what its next call makes it.
      rw [next_prepared left]
      have hafter := agreeOn_next agree.left hc hne today timeout
      have hd := hafter.left.directory
      refine .served (d := d) (by rw [ensureDirectory_of_directory hd]) right ?_
      rw [prepared_of_directory hd]
      exact hafter.trans agree
  | blocked hb left right =>
      -- What the system says does not matter here, so it may be overlooked.
      have hsilent : Overlooks (fun _ => .notFound) start directory := fun _ _ _ _ => rfl
      rcases hb.next hsilent with ⟨error, hall⟩
      exact .blocked hb (Or.inr (hall store left today timeout called).2) right

end IsAlike

end Serial

end DnsZones
