import DnsZones.Proofs.Store.Rereading

/-!
# Stores That Only Grow

What making directories and lock files adds, and that nothing else changes.

`Extends` says that the ways of a store stay open, which is all that a walk to a
directory needs. It leaves open what becomes of the files and what is added. Here
both are said: every entry is kept as it is, its content and its lock included,
and every entry that comes in is of a given kind. An operation may then be judged
by the kind of its new entries alone.

## Main definitions

* `Store.Grows`: A store that keeps all entries of another, with new ones of a kind.
* `Store.IsDirectoryAmong`: The directories to which some paths lead.
* `Store.IsLockFile`: The empty file that is made to be locked.

## Theorems

* `Store.Grows.status`: What a path led to, it still leads to.
* `Store.Attempt.grows`: An attempt at a directory adds that directory at most.
* `Store.grows_openLock`: Opening a lock file adds that file at most.
-/

namespace DnsZones

namespace Store

variable {store middle after : Store} {follow : Bool} {here l : Location} {xs : List String}
  {path : Path} {paths : List Path} {entry : Entry} {IsNew : Location → Entry → Prop}

/-- A store that keeps every entry of another as it is. What it has beside them is new, and of one
    kind. -/
structure Grows (IsNew : Location → Entry → Prop) (store after : Store) : Prop where
  workingDirectory : after.workingDirectory = store.workingDirectory
  kept : ∀ location entry, store.entryAt location = some entry →
    after.entryAt location = some entry
  added : ∀ location entry, store.entryAt location = none →
    after.entryAt location = some entry → IsNew location entry

namespace Grows

theorem refl (store : Store) : Grows IsNew store store :=
  ⟨rfl, fun _ _ h => h, fun _ _ hnone h => by rw [hnone] at h; cases h⟩

theorem trans (h : Grows IsNew store middle) (h' : Grows IsNew middle after) :
    Grows IsNew store after := by
  refine ⟨h'.workingDirectory.trans h.workingDirectory,
    fun location entry he => h'.kept location entry (h.kept location entry he),
    fun location entry hnone he => ?_⟩
  -- It came in with the first step or with the second.
  cases hm : middle.entryAt location with
  | none => exact h'.added location entry hm he
  | some old =>
      rw [h'.kept location old hm] at he
      cases he
      exact h.added location _ hnone hm

theorem mono {IsOther : Location → Entry → Prop} (h : Grows IsNew store after)
    (hkind : ∀ location entry, IsNew location entry → IsOther location entry) :
    Grows IsOther store after :=
  ⟨h.workingDirectory, h.kept, fun location entry hnone he =>
    hkind location entry (h.added location entry hnone he)⟩

theorem put_new (hnone : store.entryAt l = none) (hnew : IsNew l entry) :
    Grows IsNew store (store.put l entry) := by
  have hne : l ≠ [] := by
    rintro rfl
    cases hnone
  refine ⟨rfl, fun location old he => ?_, fun location found hfree he => ?_⟩
  · rw [entryAt_put_of_ne _ _ (fun hl => by rw [hl, hnone] at he; cases he), he]
  · by_cases hl : location = l
    · rw [hl, entryAt_put_self _ hne] at he
      cases he
      exact hl ▸ hnew
    · rw [entryAt_put_of_ne _ _ hl, hfree] at he
      cases he

/-- The ways stay open. -/
theorem toExtends (h : Grows IsNew store after) : Extends store after :=
  ⟨h.workingDirectory, fun location => h.kept location _, fun location _ => h.kept location _⟩

/-- A walk down that ends at an entry ends there. -/
theorem descend_eq (h : Grows IsNew store after)
    (hd : (∃ l entry, store.descend follow here xs = .arrived (.found l entry))
      ∨ ∃ start zs, store.descend follow here xs = .redirected start zs) :
    after.descend follow here xs = store.descend follow here xs := by
  induction xs generalizing here with
  | nil =>
      rw [descend, descend]
      cases he : store.entryAt here with
      | some entry => rw [h.kept here entry he]
      | none =>
          simp only [descend, he] at hd
          rcases hd with ⟨_, _, hd⟩ | ⟨_, _, hd⟩
          · cases hd
          · cases hd
  | cons segment rest ih =>
      rcases segment_cases store here segment with
        ⟨next, hp⟩ | ⟨hs, hp, hl⟩ | ⟨hn, he | ⟨file, he⟩ | ⟨target, he⟩⟩
      · rw [descend_of_passes hp] at hd ⊢
        rw [descend_of_passes (hp.of_directories h.toExtends.directory)]
        exact ih hd
      · rw [descend_of_tooLong hs hp hl, descend_of_tooLong hs hp hl]
      · -- Where nothing is, no walk ends at an entry.
        rw [descend_of_none hn he] at hd
        split at hd
        · rcases hd with ⟨_, _, hd⟩ | ⟨_, _, hd⟩
          · cases hd
          · cases hd
        · rcases hd with ⟨_, _, hd⟩ | ⟨_, _, hd⟩
          · cases hd
          · cases hd
      · rw [descend_of_file hn he, descend_of_file hn (h.kept _ _ he)]
      · rw [descend_of_link hn he, descend_of_link hn (h.kept _ _ he)]

theorem walk_found (h : Grows IsNew store after) {links : Nat}
    (hw : store.walk follow links here xs = .ok (.found l entry)) :
    after.walk follow links here xs = .ok (.found l entry) := by
  induction hw using walk_induction with
  | arrived _ hd =>
      rw [← h.descend_eq (Or.inl ⟨l, entry, hd⟩)] at hd
      exact walk_of_arrived hd
  | redirected _ hd _ ih =>
      rw [← h.descend_eq (Or.inr ⟨_, _, hd⟩)] at hd
      rw [walk_of_redirected hd, ih]

/-- What a path led to, it still leads to. -/
theorem status (h : Grows IsNew store after) {found : Location × Entry}
    (hs : store.status path = .ok found) : after.status path = .ok found := by
  unfold Store.status resolve walkPath at hs ⊢
  cases hc : checkPath path with
  | error error =>
      rw [hc] at hs
      cases hs
  | ok _ =>
      simp only [hc] at hs ⊢
      split at hs
      · next hw =>
          rw [h.workingDirectory, h.walk_found hw]
          exact hs
      · cases hs
      · cases hs

end Grows

/-! ### Directories -/

/-- A directory to which one of some paths leads. -/
def IsDirectoryAmong (store : Store) (paths : List Path) (location : Location) (entry : Entry) :
    Prop :=
  entry = .directory ∧ ∃ path ∈ paths, store.directory path = .ok location

theorem IsDirectoryAmong.of_extends {larger : List Path} (hx : Extends store after)
    (hp : ∀ path ∈ paths, path ∈ larger) (h : IsDirectoryAmong store paths l entry) :
    IsDirectoryAmong after larger l entry := by
  rcases h with ⟨rfl, path, hm, hd⟩
  exact ⟨rfl, path, hp path hm, directory_of_extends hx hd⟩

/-- An attempt at a directory adds that directory at most. -/
theorem Attempt.grows {result : Except SystemError Unit} (h : Attempt store path result after) :
    Grows (IsDirectoryAmong after [path]) store after := by
  cases h with
  | made hm =>
      rcases makeDirectory_put hm with ⟨l, slash, -, hnone, rfl, hc, hfound⟩
      exact Grows.put_new hnone
        ⟨rfl, path, List.mem_singleton.mpr rfl, directory_of_walkPath hc hfound⟩
  | there hm hd => exact Grows.refl store
  | failed hm hd => exact Grows.refl store

/-! ### Lock files -/

/-- The empty file that is made to be locked, where a path leads. -/
def IsLockFile (store : Store) (path : Path) (location : Location) (entry : Entry) : Prop :=
  entry = .file { content := ByteArray.empty } ∧ store.status path = .ok (location, entry)

/-- Opening a lock file adds that file at most. -/
theorem grows_openLock (h : store.openLock path = .ok (l, after)) :
    Grows (IsLockFile after path) store after := by
  unfold openLock at h
  split at h
  · cases h
    exact Grows.refl store
  · cases h
  · cases h
  · next hplace =>
      cases h
      cases hc : checkPath path with
      | error error =>
          rw [resolve, hc] at hplace
          cases hplace
      | ok _ =>
          rw [resolve, hc] at hplace
          rcases walk_put_of_vacant hplace with ⟨hnone, -, hfound⟩
          refine Grows.put_new hnone ⟨rfl, ?_⟩
          have hwalk : (store.put l (.file { content := ByteArray.empty })).walkPath true path
              = .ok (.found l (.file { content := ByteArray.empty })) :=
            hfound _ (Or.inr ⟨rfl, _, rfl⟩)
          simp only [Store.status, resolve, hc, hwalk]
  · cases h

end Store

end DnsZones
