import DnsZones.Proofs.Serial.Events

/-!
# Progress

When a call is certain to succeed.

The laws of calls say what a call does if it succeeds, and would say nothing if
none ever did. A call succeeds whenever the two files of the zone can be there,
nobody holds the lock, and the index can be read; and then the same is true after
the call, because it releases the lock and leaves an index that can be read. So a
zone that nobody disturbs is served as often as it asks.

## Main definitions

* `Store.AddsFiles`: Nothing but files came into a store.
* `Serial.IsOpen`: A store in which calls for a zone succeed.

## Theorems

* `Serial.IsOpen.next`: A call succeeds, and so will the one after it.
* `Serial.IsOpen.dates_successes`: Every call of a run succeeds.
-/

namespace DnsZones

namespace Store

variable {store middle after : Store} {directory : Path} {d location : Location} {name : String}

/-- Nothing but files came into a store. -/
structure AddsFiles (store after : Store) : Prop where
  /-- The working directory is the same. -/
  workingDirectory : after.workingDirectory = store.workingDirectory
  /-- No directory is new. -/
  directory : ∀ location, after.entryAt location = some .directory →
    store.entryAt location = some .directory

namespace AddsFiles

theorem refl (store : Store) : AddsFiles store store := ⟨rfl, fun _ h => h⟩

theorem trans (h : AddsFiles store middle) (h' : AddsFiles middle after) :
    AddsFiles store after :=
  ⟨h'.workingDirectory.trans h.workingDirectory, fun location he =>
    h.directory location (h'.directory location he)⟩

/-- One file came. -/
theorem put (store : Store) (hne : location ≠ []) (file : File) :
    AddsFiles store (store.put location (.file file)) := by
  refine ⟨rfl, fun other he => ?_⟩
  by_cases ho : other = location
  · rw [ho, entryAt_put_self _ hne] at he
    cases he
  · rwa [entryAt_put_of_ne _ _ ho] at he

/-- Setting a lock brings nothing. -/
theorem setLocked (store : Store) (location : Location) (held : Bool) :
    AddsFiles store (store.setLocked location held) := by
  rw [Store.setLocked]
  split
  · next file hfile =>
      refine put store ?_ _
      rintro rfl
      cases hfile
  · exact refl store

end AddsFiles

theorem CanHold.of_addsFiles (h : store.CanHold directory d name) (ha : AddsFiles store after) :
    after.CanHold directory d name :=
  ⟨h.checked, h.short, fun he => h.notDirectory (ha.directory _ he)⟩

/-- A lock that was released is not held. -/
theorem isLocked_setLocked_false (store : Store) (location : Location) :
    (store.setLocked location false).isLocked location = false := by
  rw [Store.setLocked]
  split
  · next file hfile =>
      have hne : location ≠ [] := by
        rintro rfl
        cases hfile
      rw [isLocked, entryAt_put_self _ hne]
  · next hnone =>
      rw [isLocked]
      split
      · next file hfile => exact absurd hfile (hnone file)
      · rfl

end Store

namespace Serial

variable {store : Store} {directory : Path} {d : Location} {zone : String}

/-- A store in which calls for a zone succeed. -/
structure IsOpen (store : Store) (directory : Path) (d : Location) (zone : String) : Prop where
  /-- The serial directory has no links in it. -/
  plain : store.IsPlainDirectory directory d
  /-- The zone can name a file. -/
  noSlash : '/' ∉ zone.toList
  /-- The index can be there. -/
  index : store.CanHold directory d (indexName zone)
  /-- The lock file can be there. -/
  lock : store.CanHold directory d (lockName zone)
  /-- There is room for the path under which an index is first written. -/
  temporary : Store.checkPath (store.temporaryPath directory) = .ok ()
  /-- Nobody holds the lock. -/
  free : store.isLocked (d ++ [lockName zone]) = false
  /-- The index can be read. -/
  readable : ∃ previous, current store directory zone = .ok previous

namespace IsOpen

/-- The lock of such a zone is taken. -/
theorem acquire (h : IsOpen store directory d zone) (timeout : Duration) :
    ∃ opened, Serial.acquire store (lockPath directory zone) timeout
        = (.ok (d ++ [lockName zone]), opened)
      ∧ Store.AddsFiles store opened := by
  have hname := isEntryName_lockName h.noSlash
  rcases Store.openLock_of_canHold h.plain hname h.lock with ⟨opened, ho⟩
  rcases Store.openLock_join h.plain hname ho with ⟨-, hopened⟩
  -- A lock file that was just made is not locked.
  have hfree : opened.isLocked (d ++ [lockName zone]) = false
      ∧ Store.AddsFiles store opened := by
    rcases hopened with ⟨rfl, -⟩ | ⟨-, rfl⟩
    · exact ⟨h.free, .refl opened⟩
    · have hne := Store.append_singleton_ne_nil d (lockName zone)
      exact ⟨by rw [Store.isLocked, Store.entryAt_put_self _ hne], .put store hne _⟩
  refine ⟨opened.setLocked (d ++ [lockName zone]) true, ?_, hfree.2.trans (.setLocked _ _ _)⟩
  rw [Serial.acquire, lockPath_eq directory h.noSlash, ho]
  simp only [hfree.1, Bool.false_eq_true, if_false]

/-- A call succeeds, and so will the one after it. -/
theorem next (h : IsOpen store directory d zone) (today : Date) (timeout : Duration) :
    ∃ text after, Serial.next store today timeout directory zone = (.ok text, after)
      ∧ IsOpen after directory d zone := by
  rcases h.acquire timeout with ⟨opened, ha, hadds⟩
  rcases acquire_spec h.plain h.noSlash ha with ⟨hplain, hsame⟩
  rcases h.readable with ⟨previous, hprevious⟩
  -- The working directory is the same, so the temporary path is.
  have htemporary : Store.checkPath (opened.temporaryPath directory) = .ok () := by
    rw [Store.temporaryPath, Store.workingPath, hadds.workingDirectory]
    exact h.temporary
  have hreplace := Store.replaceFile_of_canHold hplain.directory (isEntryName_indexName h.noSlash)
    (h.index.of_addsFiles hadds) htemporary
    (SerialIndex.advance previous today.base).document.toUTF8
  have hread : readIndex opened (indexPath directory zone) = .ok previous :=
    (hsame zone h.noSlash).trans hprevious
  have hnext : Serial.next store today timeout directory zone
      = (.ok (SerialIndex.advance previous today.base).serial,
        (opened.put (d ++ [indexName zone]) (.file {
          content := (SerialIndex.advance previous today.base).document.toUTF8 })).setLocked
            (d ++ [lockName zone]) false) := by
    rw [Serial.next, ensureDirectory_of_directory h.plain.directory]
    dsimp only
    rw [ha]
    dsimp only
    rw [advanceIndex, hread]
    dsimp only
    rw [indexPath, ← indexName, hreplace]
  -- Both files came to be files, and nothing became a directory.
  have hafter : Store.AddsFiles store ((opened.put (d ++ [indexName zone]) (.file {
      content := (SerialIndex.advance previous today.base).document.toUTF8 })).setLocked
        (d ++ [lockName zone]) false) :=
    (hadds.trans (.put _ (Store.append_singleton_ne_nil d _) _)).trans (.setLocked _ _ _)
  refine ⟨_, _, hnext, ?_⟩
  rcases next_spec h.plain h.noSlash hnext with ⟨hplain', -, hown⟩
  refine ⟨hplain', h.noSlash, h.index.of_addsFiles hafter, h.lock.of_addsFiles hafter, ?_,
    Store.isLocked_setLocked_false _ _, ?_⟩
  · rw [Store.temporaryPath, Store.workingPath, hafter.workingDirectory]
    exact h.temporary
  · -- The index is the new one if the call succeeded, and otherwise still the old one.
    rcases hown with ⟨-, hkept⟩ | ⟨last, -, -, hkept⟩
    · exact ⟨previous, hkept.trans hprevious⟩
    · exact ⟨_, hkept⟩

/-- Every call of a run succeeds. -/
theorem dates_successes (h : IsOpen store directory d zone) (timeout : Duration)
    (dates : List Date) :
    (successes directory zone store (dates.map fun date => .call zone date timeout)).map (·.date)
      = dates := by
  induction dates generalizing store with
  | nil => rfl
  | cons date dates ih =>
      rcases h.next date timeout with ⟨text, after, hnext, hafter⟩
      have hrest := ih hafter
      simp only [List.map_cons, successes, success?, Event.after, if_true, hnext,
        Option.toList_some, List.singleton_append, hrest]

end IsOpen

end Serial

end DnsZones
