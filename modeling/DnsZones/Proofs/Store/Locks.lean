import DnsZones.Proofs.Store.Directories

/-!
# Locks and Everything Else

Nothing but taking a lock depends on locks.

Whether a file is locked is part of the store, because two processes have to see
it, but it changes neither where a path leads nor what a file holds. To say so,
all locks of a store are released at once: every operation that does not ask for
a lock gives the same on the store without locks, and leaves the same behind.

Two stores that are equal without their locks are therefore the same to all these
operations. That is how a run of many calls is compared with one in which nobody
else held a lock.

## Main definitions

* `Store.unlocked`: The store without its locks.

## Theorems

* `Store.unlocked_setLocked`: Setting a lock changes nothing else.
* `Store.setLocked_release`: A lock that was taken and released leaves no trace.
* `Store.walk_unlocked`: A walk goes the same way without locks.
* `Store.readText_unlocked`: A file holds the same text without locks.
* `Store.makeDirectories_unlocked`: The same directories are made without locks.
-/

namespace DnsZones

/-- An entry without its lock. -/
def Entry.unlocked : Entry → Entry
  | .file regular => .file { regular with locked := false }
  | .directory => .directory
  | .link target => .link target

/-- A place without a lock. -/
def Place.unlocked : Place → Place
  | .found location entry => .found location entry.unlocked
  | .vacant location slash => .vacant location slash

/-- The end of a walk without a lock. -/
def Walk.unlocked : Walk → Walk
  | .arrived place => .arrived place.unlocked
  | .redirected start steps => .redirected start steps
  | .failed error => .failed error

namespace Store

/-- A store without its locks. -/
def unlocked (store : Store) : Store :=
  { store with entries := store.entries.mapValues fun _ entry => entry.unlocked }

variable {store : Store} {follow : Bool} {path : Path}

/-- What is at a location without locks. -/
theorem entryAt_unlocked (store : Store) (location : Location) :
    store.unlocked.entryAt location = (store.entryAt location).map Entry.unlocked := by
  by_cases h : location = []
  · subst h
    rfl
  · rw [entryAt_of_ne _ h, entryAt_of_ne _ h]
    exact Table.get?_mapValues _ _ _

/-- A store without locks has none to lose. -/
theorem put_unlocked (store : Store) (location : Location) (entry : Entry) :
    (store.put location entry).unlocked = store.unlocked.put location entry.unlocked := by
  -- The two tables hold the same under every location.
  have htable : (store.entries.insert location entry).mapValues (fun _ e => e.unlocked)
      = (store.entries.mapValues fun _ e => e.unlocked).insert location entry.unlocked := by
    refine Table.ext_get? fun other => ?_
    by_cases h : other = location
    · rw [h, Table.get?_mapValues, Table.get?_insert_self, Table.get?_insert_self]
      rfl
    · rw [Table.get?_mapValues, Table.get?_insert_of_ne _ _ h, Table.get?_insert_of_ne _ _ h,
        Table.get?_mapValues]
  simp only [unlocked, put, htable]

/-- Of two entries at one location the later one counts. -/
theorem put_put (store : Store) (location : Location) (first second : Entry) :
    (store.put location first).put location second = store.put location second := by
  have htable : (store.entries.insert location first).insert location second
      = store.entries.insert location second := by
    refine Table.ext_get? fun other => ?_
    by_cases h : other = location
    · rw [h, Table.get?_insert_self, Table.get?_insert_self]
    · rw [Table.get?_insert_of_ne _ _ h, Table.get?_insert_of_ne _ _ h,
        Table.get?_insert_of_ne _ _ h]
  simp only [put, htable]

/-- Entries at two locations may be put in either order. -/
theorem put_comm (store : Store) {location other : Location} (hne : other ≠ location)
    (first second : Entry) :
    (store.put location first).put other second = (store.put other second).put location first := by
  have htable : (store.entries.insert location first).insert other second
      = (store.entries.insert other second).insert location first := by
    refine Table.ext_get? fun third => ?_
    by_cases ho : third = other
    · rw [ho, Table.get?_insert_self, Table.get?_insert_of_ne _ _ hne, Table.get?_insert_self]
    · rw [Table.get?_insert_of_ne _ _ ho]
      by_cases hl : third = location
      · rw [hl, Table.get?_insert_self, Table.get?_insert_self]
      · rw [Table.get?_insert_of_ne _ _ hl, Table.get?_insert_of_ne _ _ hl,
          Table.get?_insert_of_ne _ _ ho]
  simp only [put, htable]

/-- Putting back what is there changes nothing. -/
theorem put_entryAt {location : Location} {entry : Entry} (hne : location ≠ [])
    (h : store.entryAt location = some entry) : store.put location entry = store := by
  have htable : store.entries.insert location entry = store.entries := by
    refine Table.ext_get? fun other => ?_
    by_cases ho : other = location
    · rw [ho, Table.get?_insert_self, ← h, entryAt_of_ne _ hne]
    · rw [Table.get?_insert_of_ne _ _ ho]
  rw [put, htable]

/-- Setting a lock changes nothing else. -/
theorem unlocked_setLocked (store : Store) (location : Location) (held : Bool) :
    (store.setLocked location held).unlocked = store.unlocked := by
  rw [setLocked]
  split
  · next file hf =>
      have hne : location ≠ [] := by
        rintro rfl
        cases hf
      rw [put_unlocked]
      refine put_entryAt hne ?_
      rw [entryAt_unlocked, hf]
      rfl
  · rfl

/-- A file that nobody holds is not locked where it is put. -/
theorem isLocked_put_self (store : Store) (location : Location) {file : File}
    (h : file.locked = false) : (store.put location (.file file)).isLocked location = false := by
  unfold isLocked
  split
  · next found hfound =>
      have hne : location ≠ [] := by
        rintro rfl
        cases hfound
      rw [entryAt_put_self _ hne] at hfound
      cases hfound
      exact h
  · rfl

/-- Releasing a lock that is free changes nothing. -/
theorem setLocked_free {lock : Location} (h : store.isLocked lock = false) :
    store.setLocked lock false = store := by
  unfold setLocked
  split
  · next file hfile =>
      have hne : lock ≠ [] := by
        rintro rfl
        cases hfile
      rw [isLocked, hfile] at h
      refine put_entryAt hne ?_
      rw [hfile, ← show file.locked = false from h]
  · rfl

/-- A lock that was free is as it was once it is released. -/
theorem setLocked_release {lock : Location} (h : store.isLocked lock = false) :
    (store.setLocked lock true).setLocked lock false = store := by
  have hback : (store.setLocked lock true).setLocked lock false = store.setLocked lock false := by
    cases he : store.entryAt lock with
    | none => simp only [setLocked, he]
    | some entry =>
        cases entry with
        | directory => simp only [setLocked, he]
        | link target => simp only [setLocked, he]
        | file file =>
            have hne : lock ≠ [] := by
              rintro rfl
              cases he
            simp only [setLocked, he, entryAt_put_self _ hne, put_put]
  rw [hback, setLocked_free h]

/-- The same, if a file that nobody holds is put somewhere meanwhile. -/
theorem setLocked_release_put {lock : Location} {file : File} (h : store.isLocked lock = false)
    (hfile : file.locked = false) (location : Location) :
    ((store.setLocked lock true).put location (.file file)).setLocked lock false
      = store.put location (.file file) := by
  by_cases hl : lock = location
  · -- The file takes the place of the lock.
    subst hl
    have hover : (store.setLocked lock true).put lock (.file file)
        = store.put lock (.file file) := by
      unfold setLocked
      split
      · rw [put_put]
      · rfl
    rw [hover, setLocked_free (isLocked_put_self store lock hfile)]
  · have hcomm : ((store.setLocked lock true).put location (.file file)).setLocked lock false
        = ((store.setLocked lock true).setLocked lock false).put location (.file file) := by
      unfold setLocked
      rw [entryAt_put_of_ne _ _ hl]
      split
      · rw [put_comm _ hl]
      · rfl
    rw [hcomm, setLocked_release h]

/-- Two stores that are equal without their locks have the same directories. -/
theorem IsSolid.of_unlocked {other : Store} {here : Location} (h : store.IsSolid here)
    (hu : other.unlocked = store.unlocked) : other.IsSolid here := by
  intro n
  have hentry := entryAt_unlocked other (here.take n)
  rw [hu, entryAt_unlocked, h n] at hentry
  cases he : other.entryAt (here.take n) with
  | none =>
      rw [he] at hentry
      cases hentry
  | some entry =>
      rw [he] at hentry
      -- Only a directory is one without its lock.
      cases entry with
      | directory => rfl
      | file file => cases hentry
      | link target => cases hentry

/-- The same segments are passed without locks. -/
theorem Passes.unlocked {here next : Location} {segment : String}
    (h : Passes store here segment next) : Passes store.unlocked here segment next := by
  cases h with
  | stay hs => exact .stay hs
  | up => exact .up
  | enter hn he => exact .enter hn (by rw [entryAt_unlocked, he]; rfl)

/-- A walk down goes the same way without locks. -/
theorem descend_unlocked (store : Store) (follow : Bool) (here : Location) (xs : List String) :
    store.unlocked.descend follow here xs = (store.descend follow here xs).unlocked := by
  induction xs generalizing here with
  | nil =>
      rw [descend, descend, entryAt_unlocked]
      cases store.entryAt here with
      | none => rfl
      | some entry => rfl
  | cons segment rest ih =>
      have hu := entryAt_unlocked store (here ++ [segment])
      rcases segment_cases store here segment with
        ⟨next, hp⟩ | ⟨hs, hp, hl⟩ | ⟨hn, he | ⟨file, he⟩ | ⟨target, he⟩⟩
      · rw [descend_of_passes hp, descend_of_passes hp.unlocked, ih]
      · rw [descend_of_tooLong hs hp hl, descend_of_tooLong hs hp hl]
        rfl
      · rw [he] at hu
        rw [descend_of_none hn he, descend_of_none hn hu]
        split
        · rfl
        · rfl
      · rw [he] at hu
        rw [descend_of_file hn he, descend_of_file hn hu]
        split
        · rfl
        · rfl
      · rw [he] at hu
        rw [descend_of_link hn he, descend_of_link hn hu]
        split
        · rfl
        · rfl

/-- A walk goes the same way without locks. -/
theorem walk_unlocked (store : Store) (follow : Bool) (links : Nat) (here : Location)
    (xs : List String) : store.unlocked.walk follow links here xs
      = (store.walk follow links here xs).map Place.unlocked := by
  induction links generalizing here xs with
  | zero =>
      rw [walk, walk, descend_unlocked]
      cases store.descend follow here xs with
      | arrived place => rfl
      | redirected start zs => rfl
      | failed error => rfl
  | succ links ih =>
      rw [walk, walk, descend_unlocked]
      cases store.descend follow here xs with
      | arrived place => rfl
      | redirected start zs => exact ih start zs
      | failed error => rfl

theorem resolve_unlocked (store : Store) (follow : Bool) (path : Path) :
    store.unlocked.resolve follow path = (store.resolve follow path).map Place.unlocked := by
  rw [resolve, resolve]
  cases checkPath path with
  | error error => rfl
  | ok _ => exact walk_unlocked _ _ _ _ _

theorem named_unlocked (store : Store) (path : Path) :
    store.unlocked.named path = (store.named path).map Place.unlocked := by
  rw [named, named]
  cases checkPath path with
  | error error => rfl
  | ok _ => exact walk_unlocked _ _ _ _ _

/-- A path has the same status without locks. -/
theorem status_unlocked (store : Store) (path : Path) :
    store.unlocked.status path
      = (store.status path).map fun found => (found.1, found.2.unlocked) := by
  rw [status, status, resolve_unlocked]
  cases store.resolve true path with
  | error error => rfl
  | ok place =>
      cases place with
      | found location entry => rfl
      | vacant location slash => rfl

/-- The same paths denote directories without locks. -/
theorem isDirectory_unlocked (store : Store) (path : Path) :
    store.unlocked.isDirectory path = store.isDirectory path := by
  rw [isDirectory, isDirectory, status_unlocked]
  cases store.status path with
  | error error => rfl
  | ok found =>
      rcases found with ⟨location, entry⟩
      cases entry with
      | directory => rfl
      | file file => rfl
      | link target => rfl

/-- A directory is at the same location without locks. -/
theorem directory_unlocked (store : Store) (path : Path) :
    store.unlocked.directory path = store.directory path := by
  rw [directory, directory, status_unlocked]
  split
  · rfl
  · cases store.status path with
    | error error => rfl
    | ok found =>
        rcases found with ⟨location, entry⟩
        cases entry with
        | directory => rfl
        | file file => rfl
        | link target => rfl

/-- A file holds the same text without locks. -/
theorem readText_unlocked (store : Store) (path : Path) :
    store.unlocked.readText path = store.readText path := by
  rw [readText, readText, file, file, status_unlocked]
  cases store.status path with
  | error error => rfl
  | ok found =>
      rcases found with ⟨location, entry⟩
      cases entry with
      | directory => rfl
      | file file => rfl
      | link target => rfl

/-- The same directory is made without locks. -/
theorem makeDirectory_unlocked (store : Store) (path : Path) :
    store.unlocked.makeDirectory path = (store.makeDirectory path).map unlocked := by
  rw [makeDirectory, makeDirectory, named_unlocked]
  cases store.named path with
  | error error => rfl
  | ok place =>
      cases place with
      | found location entry => rfl
      | vacant location slash =>
          exact congrArg Except.ok (put_unlocked store location .directory).symm

/-- The same directories of a chain are made without locks. -/
theorem makeChain_unlocked (store : Store) (paths : List Path) :
    store.unlocked.makeChain paths
      = ((store.makeChain paths).1, (store.makeChain paths).2.unlocked) := by
  induction paths generalizing store with
  | nil => rfl
  | cons path above ih =>
      cases hm : store.makeDirectory path with
      | ok made => simp only [makeChain, makeDirectory_unlocked, hm, Except.map]
      | error cause =>
          by_cases hc : cause = .notFound
          · subst hc
            simp only [makeChain, makeDirectory_unlocked, hm, Except.map, ih]
            rcases store.makeChain above with ⟨result, after⟩
            cases result with
            | error error => rfl
            | ok _ =>
                simp only [makeDirectory_unlocked]
                cases after.makeDirectory path with
                | ok made => rfl
                | error error => simp only [Except.map, isDirectory_unlocked]
          · -- Without locks the attempt fails for the same reason.
            have hu : store.unlocked.makeDirectory path = .error cause := by
              rw [makeDirectory_unlocked, hm]
              rfl
            rw [makeChain_of_error hm hc, makeChain_of_error hu hc, isDirectory_unlocked]

/-- The same directories are made without locks. -/
theorem makeDirectories_unlocked (store : Store) (path : Path) :
    store.unlocked.makeDirectories path
      = ((store.makeDirectories path).1, (store.makeDirectories path).2.unlocked) :=
  makeChain_unlocked store (chain path)

end Store

end DnsZones
