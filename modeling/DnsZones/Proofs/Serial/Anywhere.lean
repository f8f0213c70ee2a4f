import DnsZones.Proofs.Serial.Calls
import DnsZones.Proofs.Store.Rereading

/-!
# One Call in Any Directory

What a successful call for the next serial number has done, wherever the serial
directory is and whatever the zone is called.

Links may lead to the directory, the zone may have a name with slashes in it, and
the index itself may be a link. Then nothing can be said of other zones, but what
the call has done to the index of its own zone is the same as in a plain directory:
it is one step further. Three things could get in between. Making the lock file
could change what is read as the index, but an empty file is no index, so the call
would not have succeeded. Renaming could put the new index where it is not looked
for. And releasing the lock changes a file, but not its text.

## Theorems

* `Serial.current_of_openLock`: Opening a lock file makes no index and hides none.
* `Serial.current_of_advanceIndex`: An index that was advanced is read.
* `Serial.next_ok`: What a successful call has done to the index.
-/

namespace DnsZones

namespace Serial

variable {store after : Store} {directory : Path} {zone : String} {today : Date}
  {timeout : Duration} {previous : Option SerialIndex}

/-- The index of a zone can be read only if the file with it can be, or if there is none. -/
theorem readText_of_current (h : current store directory zone = .ok previous) :
    store.readText (indexPath directory zone) = .error .notFound
      ∨ ∃ text, store.readText (indexPath directory zone) = .ok text := by
  rw [current, readIndex] at h
  split at h
  · next hr => exact Or.inl hr
  · cases h
  · next text hr => exact Or.inr ⟨text, hr⟩

/-- Opening a lock file makes no index that can be read and hides none. -/
theorem current_of_openLock {path : Path} {location : Location}
    (ho : store.openLock path = .ok (location, after))
    (h : current after directory zone = .ok previous) :
    current store directory zone = .ok previous := by
  rcases Store.openLock_cases ho with rfl | ⟨hnone, rfl⟩
  · exact h
  · rw [current, readIndex] at h ⊢
    have hempty : String.fromUTF8? ByteArray.empty = some "" := rfl
    rcases Store.readText_put_new hnone { content := ByteArray.empty } hempty
      (indexPath directory zone) with hr | hr | hr
    · rw [hr] at h
      exact h
    · -- The empty text is no index.
      rw [hr] at h
      cases h
    · rw [hr] at h
      cases h

/-- An index that was advanced is the one after the index that was there, and is there now. -/
theorem current_of_advanceIndex {index : SerialIndex}
    (h : advanceIndex store today directory (indexPath directory zone) = (.ok index, after)) :
    ∃ previous, current store directory zone = .ok previous
      ∧ index = SerialIndex.advance previous today.base
      ∧ (store.IsSolid (Store.startOf store.workingDirectory (indexPath directory zone)) →
        current after directory zone = .ok (some index)) := by
  rw [advanceIndex] at h
  split at h
  · cases h
  · next previous hprevious =>
      dsimp only at h
      split at h
      · next replaced hr =>
          cases h
          refine ⟨previous, hprevious, rfl, fun hs => ?_⟩
          have htext := Store.readText_of_replaceFile hs (readText_of_current hprevious) hr
            (Json.fromUTF8?_toUTF8 _)
          rw [current, readIndex, htext]
          simp only [SerialIndex.readText_document]
      · cases h

/-- Taking a lock keeps the directories and the links, and makes no index and hides none. -/
theorem acquire_ok {path : Path} {lock : Location}
    (h : acquire store path timeout = (.ok lock, after)) :
    Store.Extends store after
      ∧ ∀ directory zone previous, current after directory zone = .ok previous →
        current store directory zone = .ok previous := by
  rw [acquire] at h
  split at h
  · cases h
  · next location opened ho =>
      split at h
      · cases h
      · cases h
        refine ⟨?_, fun directory zone previous hp => ?_⟩
        · exact (Store.extends_openLock ho).trans (Store.extends_setLocked _ _ _)
        · rw [current_setLocked] at hp
          exact current_of_openLock ho hp

/-- A call that succeeds has advanced the index of the zone by one step and given out the serial
    number of the new one. The index that it started from is the one in the store with the serial
    directory made. -/
theorem next_ok {serial : String}
    (h : next store today timeout directory zone = (.ok serial, after)) :
    ∃ previous, current (prepared store directory) directory zone = .ok previous
      ∧ serial = (SerialIndex.advance previous today.base).serial
      ∧ (store.IsSolid (Store.startOf store.workingDirectory (indexPath directory zone)) →
        current after directory zone = .ok (some (SerialIndex.advance previous today.base))) := by
  have hprepared := extends_prepared store directory
  rw [next] at h
  cases he : ensureDirectory store directory with
  | mk made between =>
      rw [prepared, he] at hprepared ⊢
      cases made with
      | error error =>
          rw [he] at h
          cases h
      | ok _ =>
          rw [he] at h
          dsimp only at h hprepared ⊢
          split at h
          · cases h
          · next lock locked ha =>
              rcases acquire_ok ha with ⟨hlocked, hback⟩
              split at h
              · next index written hadvance =>
                  rcases current_of_advanceIndex hadvance with ⟨previous, hprevious, rfl, hwritten⟩
                  cases h
                  refine ⟨previous, hback _ _ _ hprevious, rfl, fun hs => ?_⟩
                  -- The path of the index still starts in a directory when it is replaced.
                  have hx := hprepared.trans hlocked
                  rw [current_setLocked]
                  refine hwritten ?_
                  rw [hx.workingDirectory]
                  exact hs.of_extends hx
              · cases h

end Serial

end DnsZones
