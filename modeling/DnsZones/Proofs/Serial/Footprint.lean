import DnsZones.Proofs.Serial.Anywhere
import DnsZones.Proofs.Store.Growth
import DnsZones.Proofs.Store.Replacing

/-!
# What an Allocation Leaves Behind

The entries that giving out a serial number adds and changes, whatever fails.

Giving out a number takes many calls to the system: the serial directory is made
where it is missing, with those above it, one after the other; the lock file is
opened, and made if it is missing; the lock is taken; the index is read, and
replaced call by call; the lock is released. Any of these can fail for reasons that
have nothing to do with what is in the store, such as a full disk, and then the
allocation is over. What is proved here holds for all that can come of it.

What has been added by then stays: directories on the way to the serial directory
and an empty file that nobody holds. Both are harmless, because a later allocation
would have made them too. What was there before is the same as ever. The lock is as
it was: an allocation that comes to the index has found it free and leaves it free,
and one that gives up waiting has not touched it. The file in which the new index is
written first is gone, whether it took the place of the old one or not.

Only the renaming of that file changes an entry, and then the allocation succeeds.

None of this needs a plain directory. With links on the way the index may be
anywhere, but it is still where its path leads.

## Main definitions

* `Store.PointsAt`: A path leads to an entry at a location.
* `Serial.IsAdded`: What an allocation may add.
* `Serial.IsIndexAt`, `Serial.Advances`: What it puts in place of the index.
* `Allocating.Progress`, `Allocating.Call`: How far the calls have come, and what each of them does.
* `Allocating.Keeps`: What holds in between.

## Theorems

* `Allocating.keeps_of_call`, `Allocating.keeps_of_calls`: One call, and any number of them.
* `Allocating.calls_next`: An allocation without failures of its own.
* `Serial.next_footprint`: What an allocation changes.
-/

namespace DnsZones

namespace Store

variable {store other : Store} {path : Path} {location : Location}

/-- A path leads to an entry at a location. -/
def PointsAt (store : Store) (path : Path) (location : Location) : Prop :=
  ∃ entry, store.status path = .ok (location, entry)

/-- Locks do not change where a path leads. -/
theorem PointsAt.of_unlocked (hu : other.unlocked = store.unlocked)
    (h : store.PointsAt path location) : other.PointsAt path location := by
  rcases h with ⟨entry, h⟩
  -- Without their locks the two are one store, and a path leads to one location with and without.
  have hstatus := status_unlocked other path
  rw [hu, status_unlocked, h] at hstatus
  unfold PointsAt
  cases hother : other.status path with
  | error cause =>
      rw [hother] at hstatus
      cases hstatus
  | ok found =>
      rw [hother] at hstatus
      have hfound := congrArg Prod.fst (Except.ok.inj hstatus)
      exact ⟨found.2, congrArg Except.ok (Prod.ext hfound.symm rfl)⟩

end Store

namespace Serial

variable {store between after : Store} {directory : Path} {zone : String} {today : Date}
  {timeout : Duration}

/-! ### What is added and changed -/

/-- What an allocation may add: a directory on the way to the serial directory, or the lock file of
    the zone, which is empty and not held. -/
def IsAdded (store : Store) (directory : Path) (zone : String) (location : Location)
    (entry : Entry) : Prop :=
  store.IsDirectoryAmong (Store.chain directory) location entry
    ∨ store.IsLockFile (lockPath directory zone) location entry

/-- A store to which an allocation has added something, and in which nothing has changed. -/
abbrev Adds (store : Store) (directory : Path) (zone : String) (after : Store) : Prop :=
  Store.Grows (IsAdded after directory zone) store after

theorem IsAdded.of_grows {IsNew : Location → Entry → Prop} {location : Location} {entry : Entry}
    (hg : Store.Grows IsNew store after) (h : IsAdded store directory zone location entry) :
    IsAdded after directory zone location entry :=
  h.imp (·.of_extends hg.toExtends fun _ hp => hp) fun h => ⟨h.1, hg.status h.2⟩

/-- One more addition. -/
theorem Adds.trans (h : Adds store directory zone between)
    (h' : Adds between directory zone after) : Adds store directory zone after :=
  (h.mono fun _ _ => .of_grows h').trans h'

theorem adds_makeDirectory {path : Path} (hm : path ∈ Store.chain directory)
    (h : store.makeDirectory path = .ok after) : Adds store directory zone after := by
  have hgrows := (Store.Attempt.made h).grows
  refine hgrows.mono fun _ _ hd => Or.inl (hd.of_extends (Store.Extends.refl after) ?_)
  exact fun other ho => List.mem_singleton.mp ho ▸ hm

theorem adds_openLock {lock : Location}
    (h : store.openLock (lockPath directory zone) = .ok (lock, after)) :
    Adds store directory zone after :=
  (Store.grows_openLock h).mono fun _ _ => Or.inr

/-- What is added is not held by anybody. -/
theorem Adds.isLocked {location : Location} (h : Adds store directory zone after)
    (hl : after.isLocked location = true) : store.isLocked location = true := by
  unfold Store.isLocked at hl
  split at hl
  · next file hfile =>
      cases he : store.entryAt location with
      | some entry =>
          rw [h.kept location entry he] at hfile
          cases hfile
          rw [Store.isLocked, he]
          exact hl
      | none =>
          rcases h.added location _ he hfile with ⟨hd, -⟩ | ⟨hempty, -⟩
          · cases hd
          · cases hempty
            cases hl
  · cases hl

/-- A lock that was free can be taken and released again. -/
theorem Adds.released {lock : Location} (h : Adds store directory zone after)
    (hfree : after.isLocked lock = false) :
    Adds store directory zone ((after.setLocked lock true).setLocked lock false) := by
  rw [Store.setLocked_release hfree]
  exact h

/-- A file that nobody holds adds no lock. -/
theorem isLocked_of_put {location other : Location} {file : File} (hfile : file.locked = false)
    (hl : (store.put location (.file file)).isLocked other = true) :
    store.isLocked other = true := by
  by_cases ho : other = location
  · rw [ho, Store.isLocked_put_self store location hfile] at hl
    cases hl
  · rw [Store.isLocked, Store.entryAt_put_of_ne _ _ ho] at hl
    exact hl

/-- A new index at a location is the index of a zone. -/
structure IsIndexAt (before after : Store) (directory : Path) (zone : String) (index : SerialIndex)
    (location : Location) : Prop where
  /-- No directory was there. -/
  vacated : before.entryAt location ≠ some .directory
  /-- If a file was there, the path of the index led to it. -/
  old : ∀ file, before.entryAt location = some (.file file) →
    before.PointsAt (indexPath directory zone) location
  /-- Now the path leads there in any case. -/
  new : after.PointsAt (indexPath directory zone) location
  /-- What is read there is the new index. -/
  current : current after directory zone = .ok (some index)

/-- The index of a zone was advanced, and its serial number given out. Exactly one entry was put.
    The path of the index leads to it, and led to the file that was replaced, if the directory in
    which the path starts exists. -/
structure Advances (before : Store) (today : Date) (directory : Path) (zone serial : String)
    (after : Store) (previous : Option SerialIndex) (location : Location) : Prop where
  /-- The index was read. -/
  read : current before directory zone = .ok previous
  /-- The serial number is that of the next index. -/
  serial : serial = (SerialIndex.advance previous today.base).serial
  /-- The next index was put at the location. -/
  put : after = before.put location
    (.file { content := (SerialIndex.advance previous today.base).document.toUTF8 })
  /-- That is the place of the index. -/
  place : before.IsSolid (Store.startOf before.workingDirectory (indexPath directory zone)) →
    IsIndexAt before after directory zone (SerialIndex.advance previous today.base) location

/-- An index that comes where its path names it is found there and read. -/
theorem isIndexAt_of_names {d : Location} {name : String} {previous : Option SerialIndex}
    (hnames : Store.Names store (indexPath directory zone) d name)
    (hs : store.IsSolid (Store.startOf store.workingDirectory (indexPath directory zone)))
    (hread : current store directory zone = .ok previous) (index : SerialIndex) :
    IsIndexAt store (store.put (d ++ [name]) (.file { content := index.document.toUTF8 }))
      directory zone index (d ++ [name]) := by
  rcases hnames.status_of_readText hs (readText_of_current hread)
    { content := index.document.toUTF8 } with ⟨hold, hnew⟩
  refine ⟨hnames.notDirectory, fun file hfile => ⟨_, hold file hfile⟩, ⟨_, hnew⟩, ?_⟩
  simp only [current, readIndex, Store.readText, Store.file, hnew, Json.fromUTF8?_toUTF8,
    SerialIndex.readText_document]

/-- An index that was replaced while a lock was held has been advanced once the lock is released,
    and nothing else has changed. -/
theorem advances_of_names {lock d : Location} {name : String} {previous : Option SerialIndex}
    (hfree : store.isLocked lock = false) (hread : current store directory zone = .ok previous)
    (hnames : Store.Names (store.setLocked lock true) (indexPath directory zone) d name)
    (hafter : after = (store.setLocked lock true).put (d ++ [name])
      (.file { content := (SerialIndex.advance previous today.base).document.toUTF8 })) :
    Advances store today directory zone (SerialIndex.advance previous today.base).serial
      (after.setLocked lock false) previous (d ++ [name]) := by
  have hsame := Store.unlocked_setLocked store lock true
  have hput : after.setLocked lock false = store.put (d ++ [name])
      (.file { content := (SerialIndex.advance previous today.base).document.toUTF8 }) := by
    rw [hafter]
    exact Store.setLocked_release_put hfree rfl _
  refine ⟨hread, rfl, hput, fun hs => ?_⟩
  have hx := Store.extends_setLocked store lock true
  have hindex := isIndexAt_of_names hnames (by rw [hx.workingDirectory]; exact hs.of_extends hx)
    (by rw [current_setLocked]; exact hread) (SerialIndex.advance previous today.base)
  rw [← hafter] at hindex
  refine ⟨fun hd => hindex.vacated (hx.directory _ hd), fun file hfile => ?_,
    hindex.new.of_unlocked (Store.unlocked_setLocked _ _ _), ?_⟩
  · -- The file is there with the lock as well, though it may be the one that is held.
    have hthere := Store.entryAt_unlocked (store.setLocked lock true) (d ++ [name])
    rw [hsame, Store.entryAt_unlocked, hfile] at hthere
    cases he : (store.setLocked lock true).entryAt (d ++ [name]) with
    | none =>
        rw [he] at hthere
        cases hthere
    | some entry =>
        cases entry with
        | file held => exact (hindex.old held he).of_unlocked hsame.symm
        | directory =>
            rw [he] at hthere
            cases hthere
        | link target =>
            rw [he] at hthere
            cases hthere
  · rw [current_setLocked]
    exact hindex.current

/-- The same file is read as the same index. -/
theorem current_of_status (h : store.status (indexPath directory zone)
    = after.status (indexPath directory zone)) :
    current after directory zone = current store directory zone := by
  simp only [current, readIndex, Store.readText, Store.file, h]

theorem readIndex_error {path : Path} {error : SerialError}
    (h : readIndex store path = .error error) :
    (∃ cause, error = .read path cause) ∨ error = .parse path := by
  unfold readIndex at h
  split at h
  · cases h
  · cases h
    exact Or.inl ⟨_, rfl⟩
  · split at h
    · cases h
    · cases h
      exact Or.inr rfl

end Serial

namespace Allocating

variable {before after : Store} {today : Date} {timeout : Duration} {directory : Path}
  {zone : String}

/-! ### The calls -/

/-- How far an allocation has come. -/
inductive Progress where
  | begun
  /-- The serial directory is there. -/
  | prepared
  /-- The lock file is open. -/
  | opened (lock : Location)
  /-- The lock is held. -/
  | locked (lock : Location)
  /-- The index is being replaced by the next one. -/
  | writing (lock : Location) (index : SerialIndex) (progress : Replacing.Progress)
  | ended (result : Except SerialError String)

/-- One call of those that an allocation makes, with what it does to the store. -/
inductive Call (today : Date) (timeout : Duration) (directory : Path) (zone : String) :
    Store × Progress → Store × Progress → Prop where
  /-- One of the directories on the way is made. -/
  | make {store made : Store} {path : Path} (hm : path ∈ Store.chain directory)
    (h : store.makeDirectory path = .ok made) :
    Call today timeout directory zone (store, .begun) (made, .begun)
  /-- The serial directory is found. -/
  | found {store : Store} {d : Location} (h : store.directory directory = .ok d) :
    Call today timeout directory zone (store, .begun) (store, .prepared)
  /-- The lock file is opened. -/
  | openLock {store opened : Store} {lock : Location}
    (h : store.openLock (Serial.lockPath directory zone) = .ok (lock, opened)) :
    Call today timeout directory zone (store, .prepared) (opened, .opened lock)
  /-- The lock is taken. -/
  | take {store : Store} {lock : Location} (h : store.isLocked lock = false) :
    Call today timeout directory zone (store, .opened lock)
      (store.setLocked lock true, .locked lock)
  /-- The index is read. -/
  | read {store : Store} {lock : Location} {previous : Option SerialIndex}
    (h : Serial.current store directory zone = .ok previous) :
    Call today timeout directory zone (store, .locked lock)
      (store, .writing lock (SerialIndex.advance previous today.base) .begun)
  /-- One of the calls is made that replace the index. -/
  | replace {store next : Store} {lock : Location} {index : SerialIndex}
    {progress later : Replacing.Progress}
    (h : Replacing.Call directory (Serial.indexPath directory zone) index.document.toUTF8
      (store, progress) (next, later)) :
    Call today timeout directory zone (store, .writing lock index progress)
      (next, .writing lock index later)
  /-- The index was replaced, and the lock is released. -/
  | release {store : Store} {lock : Location} {index : SerialIndex} :
    Call today timeout directory zone (store, .writing lock index (.ended (.ok ())))
      (store.setLocked lock false, .ended (.ok index.serial))
  /-- The serial directory, or one above it, could not be made. -/
  | notMade {store : Store} (cause : SystemError) :
    Call today timeout directory zone (store, .begun)
      (store, .ended (.error (.createDirectory directory cause)))
  /-- The lock file could not be opened. -/
  | notOpened {store : Store} (cause : SystemError) :
    Call today timeout directory zone (store, .prepared)
      (store, .ended (.error (.lock (Serial.lockPath directory zone) cause)))
  /-- Somebody else held the lock all the time. -/
  | timedOut {store : Store} {lock : Location} (h : store.isLocked lock = true) :
    Call today timeout directory zone (store, .opened lock)
      (store, .ended (.error (.lockTimeout (Serial.lockPath directory zone) timeout)))
  /-- The lock could not be taken. -/
  | notTaken {store : Store} {lock : Location} (cause : SystemError) :
    Call today timeout directory zone (store, .opened lock)
      (store, .ended (.error (.lock (Serial.lockPath directory zone) cause)))
  /-- The index could not be read, and the lock is released. -/
  | notRead {store : Store} {lock : Location} (cause : SystemError) :
    Call today timeout directory zone (store, .locked lock)
      (store.setLocked lock false,
        .ended (.error (.read (Serial.indexPath directory zone) cause)))
  /-- What was read is no index, and the lock is released. -/
  | notParsed {store : Store} {lock : Location}
    (h : Serial.current store directory zone
      = .error (.parse (Serial.indexPath directory zone))) :
    Call today timeout directory zone (store, .locked lock)
      (store.setLocked lock false, .ended (.error (.parse (Serial.indexPath directory zone))))
  /-- The index could not be replaced, and the lock is released. -/
  | notReplaced {store : Store} {lock : Location} {index : SerialIndex} {cause : SystemError} :
    Call today timeout directory zone (store, .writing lock index (.ended (.error cause)))
      (store.setLocked lock false,
        .ended (.error (.write (Serial.indexPath directory zone) cause)))

/-- Any number of calls, from when nothing has been done. -/
def Calls (before : Store) (today : Date) (timeout : Duration) (directory : Path) (zone : String)
    (state : Store × Progress) : Prop :=
  Relation.ReflTransGen (Call today timeout directory zone) (before, .begun) state

/-! ### In between -/

/-- What holds however far the calls have come: a store to which something may have been added,
    and in which a lock that was free may be taken, and the index be replaced as far as that has
    come. -/
def Keeps (before : Store) (today : Date) (directory : Path) (zone : String) :
    Store × Progress → Prop
  | (store, .begun) | (store, .prepared) | (store, .opened _) =>
    Serial.Adds before directory zone store
  | (store, .locked lock) =>
    ∃ opened, Serial.Adds before directory zone opened ∧ opened.isLocked lock = false
      ∧ store = opened.setLocked lock true
  | (store, .writing lock index progress) =>
    ∃ opened previous, Serial.Adds before directory zone opened ∧ opened.isLocked lock = false
      ∧ Serial.current opened directory zone = .ok previous
      ∧ index = SerialIndex.advance previous today.base
      ∧ Replacing.Calls (opened.setLocked lock true) directory (Serial.indexPath directory zone)
        index.document.toUTF8 (store, progress)
  | (store, .ended (.error _)) => Serial.Adds before directory zone store
  | (store, .ended (.ok serial)) =>
    ∃ opened previous location, Serial.Adds before directory zone opened
      ∧ Serial.Advances opened today directory zone serial store previous location

theorem keeps_of_call {state state' : Store × Progress}
    (hk : Keeps before today directory zone state)
    (h : Call today timeout directory zone state state') :
    Keeps before today directory zone state' := by
  cases h with
  | make hm h => exact Serial.Adds.trans hk (Serial.adds_makeDirectory hm h)
  | found h => exact hk
  | openLock h => exact Serial.Adds.trans hk (Serial.adds_openLock h)
  | take h => exact ⟨_, hk, h, rfl⟩
  | read h =>
      -- What is read under the lock is what was there before it was taken.
      rcases hk with ⟨opened, hadds, hfree, rfl⟩
      rw [Serial.current_setLocked] at h
      exact ⟨opened, _, hadds, hfree, h, rfl, .refl⟩
  | replace h =>
      rcases hk with ⟨opened, previous, hadds, hfree, hread, hindex, hcalls⟩
      exact ⟨opened, previous, hadds, hfree, hread, hindex, hcalls.tail h⟩
  | release =>
      rcases hk with ⟨opened, previous, hadds, hfree, hread, rfl, hcalls⟩
      rcases Replacing.names_of_calls hcalls with ⟨-, d, name, -, hnames, hafter⟩
      exact ⟨opened, previous, d ++ [name], hadds,
        Serial.advances_of_names hfree hread hnames hafter⟩
  | notMade cause => exact hk
  | notOpened cause => exact hk
  | timedOut h => exact hk
  | notTaken cause => exact hk
  | notRead cause =>
      rcases hk with ⟨opened, hadds, hfree, rfl⟩
      exact hadds.released hfree
  | notParsed h =>
      rcases hk with ⟨opened, hadds, hfree, rfl⟩
      exact hadds.released hfree
  | notReplaced =>
      -- The file under the unused name is gone, and the lock is as it was.
      rcases hk with ⟨opened, previous, hadds, hfree, -, -, hcalls⟩
      rw [Keeps, Replacing.eq_of_calls hcalls]
      exact hadds.released hfree

theorem keeps_of_calls {state : Store × Progress}
    (h : Calls before today timeout directory zone state) :
    Keeps before today directory zone state := by
  induction h with
  | refl => exact Store.Grows.refl before
  | tail _ hcall ih => exact keeps_of_call ih hcall

/-! ### An allocation without failures of its own -/

/-- An attempt at a directory makes it, or finds it, or makes nothing. -/
theorem calls_of_attempt {path : Path} {result : Except SystemError Unit}
    (hm : path ∈ Store.chain directory) (h : Store.Attempt before path result after) :
    Calls before today timeout directory zone (after, .begun) := by
  cases h with
  | made h => exact .single (.make hm h)
  | there h hd => exact .refl
  | failed h hd => exact .refl

/-- Making a chain of directories makes some of them, one after the other. -/
theorem calls_makeChain {paths : List Path} {result : Except SystemError Unit}
    (hm : ∀ path ∈ paths, path ∈ Store.chain directory)
    (h : before.makeChain paths = (result, after)) :
    Calls before today timeout directory zone (after, .begun) := by
  induction paths generalizing result after with
  | nil =>
      cases h
      exact .refl
  | cons path above ih =>
      have hpath := hm path List.mem_cons_self
      have habove := fun other ho => hm other (List.mem_cons_of_mem path ho)
      rcases Store.makeChain_cons_cases h with
        hfirst | ⟨-, ⟨cause, ha, -⟩ | ⟨between, ha, hsecond⟩⟩
      · exact calls_of_attempt hpath hfirst
      · exact ih habove ha
      · exact (ih habove ha).trans (calls_of_attempt hpath hsecond)

/-- The serial directory is made and found, or cannot be made. -/
theorem calls_ensureDirectory {result : Except SerialError Unit}
    (h : Serial.ensureDirectory before directory = (result, after)) :
    (result = .ok () ∧ Calls before today timeout directory zone (after, .prepared))
      ∨ ∃ error, result = .error error
        ∧ Calls before today timeout directory zone (after, .ended (.error error)) := by
  have hmade := h
  rw [Serial.ensureDirectory_eq] at h
  split at h
  · next hchain =>
      cases h
      rcases Serial.exists_directory_of_ensureDirectory hmade with ⟨d, hd⟩
      exact Or.inl ⟨rfl, (calls_makeChain (fun _ hp => hp) hchain).tail (.found hd)⟩
  · next cause hchain =>
      cases h
      exact Or.inr ⟨_, rfl, (calls_makeChain (fun _ hp => hp) hchain).tail (.notMade _)⟩

/-- The lock is taken, or the lock file cannot be opened, or somebody else holds the lock. -/
theorem calls_acquire {store : Store} {result : Except SerialError Location}
    (hcalls : Calls before today timeout directory zone (store, .prepared))
    (h : Serial.acquire store (Serial.lockPath directory zone) timeout = (result, after)) :
    (∃ lock, result = .ok lock
        ∧ Calls before today timeout directory zone (after, .locked lock))
      ∨ ∃ error, result = .error error
        ∧ Calls before today timeout directory zone (after, .ended (.error error)) := by
  unfold Serial.acquire at h
  split at h
  · cases h
    exact Or.inr ⟨_, rfl, hcalls.tail (.notOpened _)⟩
  · next lock opened ho =>
      have hopened := hcalls.tail (.openLock ho)
      split at h
      · next hheld =>
          cases h
          exact Or.inr ⟨_, rfl, hopened.tail (.timedOut hheld)⟩
      · next hfree =>
          cases h
          exact Or.inl ⟨_, rfl, hopened.tail (.take (Bool.not_eq_true _ ▸ hfree))⟩

/-- The calls that replace the index are made one by one. -/
theorem calls_replacing {store : Store} {lock : Location} {index : SerialIndex}
    {state : Store × Replacing.Progress}
    (hcalls : Calls before today timeout directory zone (store, .writing lock index .begun))
    (h : Replacing.Calls store directory (Serial.indexPath directory zone)
      index.document.toUTF8 state) :
    Calls before today timeout directory zone (state.1, .writing lock index state.2) := by
  induction h with
  | refl => exact hcalls
  | tail _ hcall ih => exact ih.tail (.replace hcall)

/-- The index is replaced by the next one and the lock released, or the lock is released at once. -/
theorem calls_advanceIndex {store : Store} {lock : Location}
    {result : Except SerialError SerialIndex}
    (hcalls : Calls before today timeout directory zone (store, .locked lock))
    (h : Serial.advanceIndex store today directory (Serial.indexPath directory zone)
      = (result, after)) :
    Calls before today timeout directory zone
      (after.setLocked lock false, .ended (result.map SerialIndex.serial)) := by
  unfold Serial.advanceIndex at h
  split at h
  · next error hread =>
      cases h
      rcases Serial.readIndex_error hread with ⟨cause, rfl⟩ | rfl
      · exact hcalls.tail (.notRead cause)
      · exact hcalls.tail (.notParsed hread)
  · next previous hread =>
      have hwriting := hcalls.tail (.read hread)
      have hreplaced := calls_replacing hwriting (Replacing.calls_replaceFile store directory
        (Serial.indexPath directory zone) _)
      dsimp only at h
      split at h
      · next replaced hr =>
          cases h
          rw [hr] at hreplaced
          exact hreplaced.tail .release
      · next cause replaced hr =>
          cases h
          rw [hr] at hreplaced
          exact hreplaced.tail .notReplaced

/-- An allocation is a sequence of the calls. -/
theorem calls_next (store : Store) (today : Date) (timeout : Duration) (directory : Path)
    (zone : String) :
    Calls store today timeout directory zone
      ((Serial.next store today timeout directory zone).2,
        .ended (Serial.next store today timeout directory zone).1) := by
  unfold Serial.next
  rcases he : Serial.ensureDirectory store directory with ⟨made, base⟩
  rcases calls_ensureDirectory he with ⟨rfl, hprepared⟩ | ⟨error, rfl, hended⟩
  · rcases ha : Serial.acquire base (Serial.lockPath directory zone) timeout
      with ⟨taken, locked⟩
    rcases calls_acquire hprepared ha with ⟨lock, rfl, htaken⟩ | ⟨error, rfl, hended⟩
    · rcases hw : Serial.advanceIndex locked today directory (Serial.indexPath directory zone)
        with ⟨advanced, written⟩
      have hended := calls_advanceIndex htaken hw
      simp only [ha, hw]
      cases advanced with
      | ok index => exact hended
      | error error => exact hended
    · simp only [ha]
      exact hended
  · exact hended

end Allocating

namespace Serial

/-- What an allocation changes, whichever of its calls fails. It makes such calls and no others.
    Whatever happens, no lock is held afterwards that was not held before. If the allocation fails,
    every entry is as it was and every path leads where it led; directories on the way to the
    serial directory and an empty lock file may have come in, but nothing else. If it succeeds,
    exactly one entry more is put, and that is the next index of the zone, whose serial number is
    given out. -/
theorem next_footprint (store : Store) (today : Date) (timeout : Duration) (directory : Path)
    (zone : String) :
    Allocating.Calls store today timeout directory zone
        ((next store today timeout directory zone).2,
          .ended (next store today timeout directory zone).1)
      ∧ ∀ after result,
        Allocating.Calls store today timeout directory zone (after, .ended result) →
        (∀ location, after.isLocked location = true → store.isLocked location = true)
          ∧ (∀ error, result = .error error →
            Store.Grows (IsAdded after directory zone) store after
              ∧ ∀ path found, store.status path = .ok found → after.status path = .ok found)
          ∧ ∀ serial, result = .ok serial → ∃ between previous location,
            Store.Grows (IsAdded between directory zone) store between
              ∧ Advances between today directory zone serial after previous location := by
  refine ⟨Allocating.calls_next store today timeout directory zone, fun after result hcalls => ?_⟩
  have hkeeps := Allocating.keeps_of_calls hcalls
  cases result with
  | error error =>
      have hadds : Adds store directory zone after := hkeeps
      exact ⟨fun location => hadds.isLocked,
        fun _ _ => ⟨hadds, fun _ _ => hadds.status⟩, nofun⟩
  | ok serial =>
      rcases hkeeps with ⟨between, previous, location, hadds, hadvances⟩
      refine ⟨fun other hl => hadds.isLocked ?_, nofun, fun other hs => ?_⟩
      · rw [hadvances.put] at hl
        exact isLocked_of_put rfl hl
      · cases hs
        exact ⟨between, previous, location, hadds, hadvances⟩

end Serial

namespace Awaited

/-- The third change of a day. -/
def stored : File where
  content := "\x7b\"base_serial_number\":19700101,\"change_index\":3\x7d".toUTF8

/-- A store with that index and its lock file, which somebody else may hold. -/
def store (held : Bool) : Store where
  entries := ((Table.empty.insert ["serials"] .directory).insert
    ["serials", "z..serial"] (.file stored)).insert
    ["serials", "z..serial.lock"] (.file { content := ByteArray.empty, locked := held })

def directory : Path := ⟨"/serials"⟩

def index : Path := ⟨"/serials/z..serial"⟩

def lock : Location := ["serials", "z..serial.lock"]

def call (held : Bool) : Except SerialError String × Store :=
  Serial.next (store held) .epoch Serial.defaultTimeout directory "z."

/-- The store with the lock taken and an empty file for the new index. -/
def begun : Store :=
  ((store false).setLocked lock true).put ["serials", ".tmpA"]
    (.file { content := ByteArray.empty })

/-- That store with the file removed and the lock released. -/
def ended : Store := (begun.delete ["serials", ".tmpA"]).setLocked lock false

/-- The index after the one in the store. -/
def next : SerialIndex := SerialIndex.advance (some ⟨19700101, 3⟩) Date.epoch.base

/-- The disk is full when the new index is to be written. -/
theorem calls_ended :
    Allocating.Calls (store false) .epoch Serial.defaultTimeout directory "z."
      (ended, .ended (.error (.write index .noSpace))) := by
  have hdirectory : (store false).directory directory = .ok ["serials"] := rfl
  have hlock : (store false).openLock (Serial.lockPath directory "z.")
      = .ok (lock, store false) := rfl
  have hread : Serial.current ((store false).setLocked lock true) directory "z."
      = .ok (some ⟨19700101, 3⟩) := by decide
  have htemporary : ((store false).setLocked lock true).temporaryDirectory directory
      = .ok ["serials"] := rfl
  have hopened : Allocating.Calls (store false) .epoch Serial.defaultTimeout directory "z."
      (store false, .opened lock) :=
    (Relation.ReflTransGen.single (.found hdirectory)).tail (.openLock hlock)
  have hbegun : Allocating.Calls (store false) .epoch Serial.defaultTimeout directory "z."
      (begun, .writing lock next (.filling ["serials"] ".tmpA" next.document.toUTF8)) :=
    ((hopened.tail (.take rfl)).tail (.read hread)).tail (.replace (.create htemporary rfl))
  exact (hbegun.tail (.replace (.notFilled .noSpace))).tail .notReplaced

/-- While somebody holds the lock the allocation fails and the index stays where it is. Otherwise
    the index is replaced by the next one, or, if the disk is full by then, stays where it is, and
    the file that was to replace it is gone. -/
theorem next_footprint_awaited :
    (call true).1 = .error (.lockTimeout ⟨"/serials/z..serial.lock"⟩ Serial.defaultTimeout)
      ∧ (call true).2.status index = .ok (["serials", "z..serial"], .file stored)
      ∧ (call false).1 = .ok "1970010104"
      ∧ Serial.current (call false).2 directory "z." = .ok (some ⟨19700101, 4⟩)
      ∧ (∀ location, (call false).2.isLocked location = true →
        (store false).isLocked location = true)
      ∧ begun.entryAt ["serials", ".tmpA"] = some (.file { content := ByteArray.empty })
      ∧ ended.entryAt ["serials", ".tmpA"] = none
      ∧ ended.status index = .ok (["serials", "z..serial"], .file stored)
      ∧ ∀ location, ended.isLocked location = true → (store false).isLocked location = true := by
  have hheld : (call true).1
      = .error (.lockTimeout ⟨"/serials/z..serial.lock"⟩ Serial.defaultTimeout) := by decide
  have hgiven : (call false).1 = .ok "1970010104" := by decide
  have hbefore : Serial.current (store false) directory "z." = .ok (some ⟨19700101, 3⟩) := by
    decide
  rcases Serial.next_footprint (store true) .epoch Serial.defaultTimeout directory "z." with
    ⟨hwaited, hwait⟩
  rcases Serial.next_footprint (store false) .epoch Serial.defaultTimeout directory "z." with
    ⟨hmade, hany⟩
  rcases hwait _ _ hwaited with ⟨-, hkept, -⟩
  rcases hany _ _ hmade with ⟨hfree, -, hput⟩
  rcases hany _ _ calls_ended with ⟨hreleased, hfull, -⟩
  rcases hput _ hgiven with ⟨between, previous, location, hadds, hadvances⟩
  refine ⟨hheld, (hkept _ hheld).2 _ _ rfl, hgiven, ?_, hfree, rfl, rfl, (hfull _ rfl).2 _ _ rfl,
    hreleased⟩
  -- The index that was read is the one that was there.
  have hthere : (store false).status (Serial.indexPath directory "z.")
      = .ok (["serials", "z..serial"], .file stored) := rfl
  have hread := hadvances.read
  rw [Serial.current_of_status (hthere.trans (hadds.status hthere).symm), hbefore] at hread
  cases hread
  exact (hadvances.place (Store.IsSolid.root between)).current

end Awaited

end DnsZones
