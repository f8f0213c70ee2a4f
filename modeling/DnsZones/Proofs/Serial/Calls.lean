import DnsZones.Proofs.Serial.Document
import DnsZones.Proofs.Store.Files
import DnsZones.Serial.Allocation

/-!
# One Call

What one call for the next serial number does to the indexes of all zones.

In a directory without links the files of two zones are different files, so a
call touches nothing but the index and the lock file of its own zone, and the
lock file never matters to what an index is. A call that fails has changed no
index, and one that succeeds has advanced one by one step and left a text that is
read as the new index.

The serial directory itself may be missing at first. Making it is either done
after the first call, or it fails again in every later one; what a call does is
therefore said of the store with the directory made.

## Main definitions

* `Serial.indexName`, `Serial.lockName`: The names of a zone's two files.
* `Serial.prepared`: The store with the serial directory made.

## Theorems

* `Serial.ensureDirectory_of_directory`: A directory is made only once.
* `Serial.ensureDirectory_retry`: A directory that cannot be made stays so.
* `Serial.current_put`: A file with another name is no index of a zone.
* `Serial.next_spec`: What one call does in a plain directory.
-/

namespace DnsZones

namespace Serial

variable {store after : Store} {directory : Path} {d : Location} {zone other : String}
  {timeout : Duration} {today : Date}

/-! ### The files of a zone -/

/-- The name of a zone's index. -/
def indexName (zone : String) : String := zone ++ ".serial"

/-- The name of a zone's lock file. -/
def lockName (zone : String) : String := zone ++ ".serial.lock"

/-- A name that ends in a letter names an entry. -/
theorem isEntryName_append {suffix : String} {c : Char} (hz : '/' ∉ zone.toList)
    (hs : '/' ∉ suffix.toList) (hlast : suffix.toList.getLast? = some c) (hc : c ≠ '.') :
    Path.IsEntryName (zone ++ suffix) := by
  -- The last letter tells the name from both kinds of dots.
  have hend : (zone ++ suffix).toList.getLast? = some c := by
    rw [String.toList_append, List.getLast?_append, hlast, Option.some_or]
  have hne : ∀ name : String, name.toList.getLast? ≠ some c → zone ++ suffix ≠ name := by
    rintro name hname rfl
    exact hname hend
  have hdot : some '.' ≠ some c := fun he => hc (Option.some.inj he).symm
  refine ⟨?_, ?_, hne ".." hdot⟩
  · rw [String.toList_append, List.mem_append]
    exact fun h => h.elim hz hs
  · rw [← Bool.not_eq_false, Path.isStep_eq_false_iff]
    exact fun h => h.elim (hne "" nofun) (hne "." hdot)

theorem isEntryName_indexName (hz : '/' ∉ zone.toList) : Path.IsEntryName (indexName zone) :=
  isEntryName_append (c := 'l') hz (by decide) rfl (by decide)

theorem isEntryName_lockName (hz : '/' ∉ zone.toList) : Path.IsEntryName (lockName zone) :=
  isEntryName_append (c := 'k') hz (by decide) rfl (by decide)

/-- The path of a zone's lock file. -/
theorem lockPath_eq (directory : Path) (hz : '/' ∉ zone.toList) :
    lockPath directory zone = directory.join (lockName zone) := by
  obtain ⟨before, hindex, hjoin⟩ :=
    Path.exists_text_join directory (isEntryName_indexName hz).noSlash
  -- A suffix of the file name is a suffix of the whole path.
  have htext : (lockPath directory zone).text = (directory.join (lockName zone)).text := by
    rw [hjoin _ (isEntryName_lockName hz).noSlash]
    change (directory.join (indexName zone)).text ++ ".lock" = _
    rw [hindex, String.append_assoc, indexName, String.append_assoc]
    rfl
  cases hlock : lockPath directory zone
  cases hname : directory.join (lockName zone)
  rw [hlock, hname] at htext
  exact congrArg Path.mk htext

theorem indexName_ne_lockName (zone other : String) : indexName zone ≠ lockName other := by
  intro h
  have hlast := congrArg (fun name => name.toList.getLast?) h
  simp only [indexName, lockName, String.toList_append, List.getLast?_append] at hlast
  cases hlast

theorem indexName_ne (h : zone ≠ other) : indexName zone ≠ indexName other := fun he =>
  h (String.append_left_inj ".serial" |>.mp he)

theorem indexName_ne_unusedName (store : Store) (zone : String) :
    indexName zone ≠ store.unusedName := by
  refine Store.ne_unusedName (c := 'l') store (by decide) ?_
  rw [indexName, String.toList_append, List.getLast?_append]
  rfl

/-! ### The serial directory -/

/-- The store with the serial directory made, as far as that is possible. -/
def prepared (store : Store) (directory : Path) : Store := (ensureDirectory store directory).2

/-- Making the serial directory is making the directories on the way to it. -/
theorem ensureDirectory_eq (store : Store) (directory : Path) :
    ensureDirectory store directory
      = match store.makeDirectories directory with
        | (.ok (), after) => (.ok (), after)
        | (.error cause, after) => (.error (.createDirectory directory cause), after) := by
  rw [ensureDirectory]
  split
  · next h =>
      -- The shortcut for a directory that is there changes nothing either.
      rcases Store.exists_directory_of_isDirectory h with ⟨d, hd⟩
      rw [Store.makeDirectories_of_directory hd]
  · rfl

/-- A directory that is there need not be made. -/
theorem ensureDirectory_of_directory (h : store.directory directory = .ok d) :
    ensureDirectory store directory = (.ok (), store) := by
  rw [ensureDirectory_eq, Store.makeDirectories_of_directory h]

theorem prepared_of_directory (h : store.directory directory = .ok d) :
    prepared store directory = store := by
  rw [prepared, ensureDirectory_of_directory h]

theorem prepared_eq (store : Store) (directory : Path) :
    prepared store directory = (store.makeDirectories directory).2 := by
  rw [prepared, ensureDirectory_eq]
  split
  · next hm => rw [hm]
  · next hm => rw [hm]

theorem extends_prepared (store : Store) (directory : Path) :
    Store.Extends store (prepared store directory) := by
  rw [prepared_eq]
  exact Store.extends_makeChain store _

/-- Making the serial directory does the same without locks. -/
theorem ensureDirectory_unlocked (store : Store) (directory : Path) :
    ensureDirectory store.unlocked directory
      = ((ensureDirectory store directory).1, (prepared store directory).unlocked) := by
  rw [prepared, ensureDirectory_eq, ensureDirectory_eq, Store.makeDirectories_unlocked]
  rcases store.makeDirectories directory with ⟨result, after⟩
  cases result with
  | ok _ => rfl
  | error cause => rfl

/-- A serial directory that was made is there. -/
theorem exists_directory_of_ensureDirectory
    (h : ensureDirectory store directory = (.ok (), after)) :
    ∃ d, after.directory directory = .ok d := by
  rw [ensureDirectory_eq] at h
  split at h
  · next hm =>
      cases h
      exact Store.makeDirectories_ok hm
  · cases h

/-- A directory that cannot be made cannot be made later, and trying again changes nothing. -/
theorem ensureDirectory_retry
    (hs : store.IsSolid (Store.startOf store.workingDirectory directory)) {error : SerialError}
    (h : ensureDirectory store directory = (.error error, after)) :
    ∃ error, ensureDirectory after directory = (.error error, after) := by
  rw [ensureDirectory_eq] at h
  split at h
  · cases h
  · next hm =>
      cases h
      rcases Store.makeDirectories_retry hs hm with ⟨again, hagain⟩
      exact ⟨.createDirectory directory again, by rw [ensureDirectory_eq, hagain]⟩

/-! ### The index of a zone -/

theorem current_unlocked (store : Store) (directory : Path) (zone : String) :
    current store.unlocked directory zone = current store directory zone := by
  unfold current readIndex
  rw [Store.readText_unlocked]

theorem current_setLocked (store : Store) (location : Location) (held : Bool) (directory : Path)
    (zone : String) :
    current (store.setLocked location held) directory zone = current store directory zone := by
  rw [← current_unlocked, Store.unlocked_setLocked, current_unlocked]

/-- A file with another name is not the index of a zone. -/
theorem current_put {name : String} (h : store.IsPlainDirectory directory d)
    (hz : '/' ∉ zone.toList) (hne : indexName zone ≠ name)
    (hd : store.entryAt (d ++ [name]) ≠ some .directory) (file : File) :
    current (store.put (d ++ [name]) (.file file)) directory zone
      = current store directory zone := by
  have htext : (store.put (d ++ [name]) (.file file)).readText (indexPath directory zone)
      = store.readText (indexPath directory zone) :=
    Store.readText_join_congr h (h.put_file hd file) (isEntryName_indexName hz)
      (Store.entryAt_put_of_ne _ _ (Store.append_singleton_ne hne))
  unfold current readIndex
  rw [htext]

/-- An index that was put in its place is there. -/
theorem current_put_document {index : SerialIndex} (h : store.IsPlainDirectory directory d)
    (hz : '/' ∉ zone.toList) (hc : store.CanHold directory d (indexName zone)) :
    current (store.put (d ++ [indexName zone]) (.file { content := index.document.toUTF8 }))
      directory zone = .ok (some index) := by
  have htext : (store.put (d ++ [indexName zone])
      (.file { content := index.document.toUTF8 })).readText (indexPath directory zone)
        = .ok index.document :=
    Store.readText_join_of_file
      (h.put_file hc.notDirectory { content := index.document.toUTF8 })
      (isEntryName_indexName hz) hc.checked hc.short
      (Store.entryAt_put_self _ (Store.append_singleton_ne_nil d _) _)
      (Json.fromUTF8?_toUTF8 index.document)
  unfold current readIndex
  rw [htext]
  simp only [SerialIndex.readText_document]

/-! ### The steps of a call -/

theorem isPlainDirectory_setLocked (h : store.IsPlainDirectory directory d) (location : Location)
    (held : Bool) : (store.setLocked location held).IsPlainDirectory directory d := by
  have hu := h.unlocked
  rw [← Store.unlocked_setLocked store location held] at hu
  exact hu.of_unlocked

/-- Taking the lock of a zone changes no index. -/
theorem acquire_spec (h : store.IsPlainDirectory directory d) (hz : '/' ∉ zone.toList)
    {result : Except SerialError Location}
    (ha : acquire store (lockPath directory zone) timeout = (result, after)) :
    after.IsPlainDirectory directory d
      ∧ ∀ other : String, '/' ∉ other.toList →
        current after directory other = current store directory other := by
  rw [acquire, lockPath_eq directory hz] at ha
  cases ho : store.openLock (directory.join (lockName zone)) with
  | error cause =>
      rw [ho] at ha
      cases ha
      exact ⟨h, fun _ _ => rfl⟩
  | ok found =>
      rcases found with ⟨location, opened⟩
      rcases Store.openLock_join h (isEntryName_lockName hz) ho with ⟨rfl, hopened⟩
      -- Only opening the lock file can make an entry, and no index has its name.
      have hsame : opened.IsPlainDirectory directory d
          ∧ ∀ other : String, '/' ∉ other.toList →
            current opened directory other = current store directory other := by
        rcases hopened with ⟨rfl, -⟩ | ⟨hnone, rfl⟩
        · exact ⟨h, fun _ _ => rfl⟩
        · have hd : store.entryAt (d ++ [lockName zone]) ≠ some .directory := by
            rw [hnone]
            exact nofun
          exact ⟨h.put_file hd _, fun other hother =>
            current_put h hother (indexName_ne_lockName other zone) hd _⟩
      rw [ho] at ha
      dsimp only at ha
      split at ha
      · cases ha
        exact hsame
      · cases ha
        -- The lock itself is no part of an index.
        refine ⟨isPlainDirectory_setLocked hsame.1 _ _, fun other hother => ?_⟩
        rw [current_setLocked, hsame.2 other hother]

/-- Advancing the index of a zone either changes nothing, or advances it by one step and changes
    no other. -/
theorem advanceIndex_spec (h : store.IsPlainDirectory directory d) (hz : '/' ∉ zone.toList)
    {result : Except SerialError SerialIndex}
    (ha : advanceIndex store today directory (indexPath directory zone) = (result, after)) :
    (∃ error, result = .error error ∧ after = store)
      ∨ ∃ previous, current store directory zone = .ok previous
        ∧ result = .ok (SerialIndex.advance previous today.base)
        ∧ after.IsPlainDirectory directory d
        ∧ current after directory zone = .ok (some (SerialIndex.advance previous today.base))
        ∧ ∀ other : String, '/' ∉ other.toList → other ≠ zone →
          current after directory other = current store directory other := by
  unfold advanceIndex at ha
  split at ha
  · -- Nothing is written before the old index is read.
    next error hr =>
      cases ha
      exact Or.inl ⟨error, rfl, rfl⟩
  · next previous hr =>
      dsimp only at ha
      cases hw : store.replaceFile directory (indexPath directory zone)
          (SerialIndex.advance previous today.base).document.toUTF8 with
      | mk written replaced =>
          rcases Store.replaceFile_join h.directory (isEntryName_indexName hz) hw with
            ⟨cause, rfl, rfl⟩ | ⟨rfl, rfl, hc⟩
          · -- A failed write cleans up after itself.
            rw [hw] at ha
            cases ha
            exact Or.inl ⟨_, rfl, rfl⟩
          · rw [hw] at ha
            cases ha
            exact Or.inr ⟨previous, hr, rfl, h.put_file hc.notDirectory _,
              current_put_document h hz hc, fun other hother hne =>
                current_put h hother (indexName_ne hne) hc.notDirectory _⟩

/-- A call makes the serial directory first. -/
theorem next_prepared (h : (ensureDirectory store directory).1 = .ok ()) (today : Date)
    (timeout : Duration) (zone : String) :
    next store today timeout directory zone
      = next (prepared store directory) today timeout directory zone := by
  have hmade : ensureDirectory store directory = (.ok (), prepared store directory) := by
    rw [← h]
    rfl
  rcases exists_directory_of_ensureDirectory hmade with ⟨d, hd⟩
  unfold next
  rw [hmade, ensureDirectory_of_directory hd]

/-- A call fails if the serial directory cannot be made. -/
theorem next_of_error {error : SerialError} (h : (ensureDirectory store directory).1 = .error error)
    (today : Date) (timeout : Duration) (zone : String) :
    next store today timeout directory zone = (.error error, prepared store directory) := by
  have hfailed : ensureDirectory store directory = (.error error, prepared store directory) := by
    rw [← h]
    rfl
  unfold next
  rw [hfailed]

/-- What one call does in a plain directory. It changes the index of its own zone only, and only
    if it succeeds; then the serial number and the new index are the next ones. -/
theorem next_spec (h : store.IsPlainDirectory directory d) (hz : '/' ∉ zone.toList)
    {result : Except SerialError String}
    (hn : next store today timeout directory zone = (result, after)) :
    after.IsPlainDirectory directory d
      ∧ (∀ other : String, '/' ∉ other.toList → other ≠ zone →
        current after directory other = current store directory other)
      ∧ ((∃ error, result = .error error)
          ∧ current after directory zone = current store directory zone
        ∨ ∃ previous, current store directory zone = .ok previous
          ∧ result = .ok (SerialIndex.advance previous today.base).serial
          ∧ current after directory zone
            = .ok (some (SerialIndex.advance previous today.base))) := by
  unfold next at hn
  rw [ensureDirectory_of_directory h.directory] at hn
  dsimp only at hn
  -- First the lock, then the index, then the lock again: the three effects are put together.
  cases ha : acquire store (lockPath directory zone) timeout with
  | mk locked opened =>
      rcases acquire_spec h hz ha with ⟨hplain, hsame⟩
      rw [ha] at hn
      cases locked with
      | error error =>
          cases hn
          exact ⟨hplain, fun other hother _ => hsame other hother,
            Or.inl ⟨⟨error, rfl⟩, hsame zone hz⟩⟩
      | ok lock =>
          cases hadvance : advanceIndex opened today directory (indexPath directory zone) with
          | mk advanced written =>
              dsimp only at hn
              rw [hadvance] at hn
              rcases advanceIndex_spec hplain hz hadvance with
                ⟨error, rfl, rfl⟩ | ⟨previous, hprevious, rfl, hwritten, hown, hothers⟩
              · -- The lock is released whether the index could be advanced or not.
                cases hn
                refine ⟨isPlainDirectory_setLocked hplain _ _, fun other hother _ => ?_,
                  Or.inl ⟨⟨error, rfl⟩, ?_⟩⟩
                · rw [current_setLocked, hsame other hother]
                · rw [current_setLocked, hsame zone hz]
              · cases hn
                refine ⟨isPlainDirectory_setLocked hwritten _ _, fun other hother hne => ?_,
                  Or.inr ⟨previous, ?_, rfl, ?_⟩⟩
                · rw [current_setLocked, hothers other hother hne, hsame other hother]
                · rw [← hsame zone hz, hprevious]
                · rw [current_setLocked, hown]

end Serial

end DnsZones
