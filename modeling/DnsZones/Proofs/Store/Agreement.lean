import DnsZones.Proofs.Store.Files

/-!
# Stores That Agree

What two stores have in common if they hold the same under some names of a
directory.

The operations on a file of a plain directory look at nothing but the entry with
the file's name, apart from the working directory, whose length counts where a
temporary file is needed. So from two stores that agree on the name they give the
same result and leave stores that agree on it again. What they do to other names
is that they do nothing, which is the case of a store and the same store with one
more file.

## Main definitions

* `Store.AgreeOn`: Two stores hold the same under some names.

## Theorems

* `Store.AgreeOn.put`: The same file in both.
* `Store.agreeOn_put`: A file under another name.
* `Store.AgreeOn.openLock`, `Store.AgreeOn.isLocked`, `Store.AgreeOn.setLocked`: Lock files.
* `Store.AgreeOn.readText`: Reading.
* `Store.AgreeOn.replaceFile`: Replacing.
-/

namespace DnsZones

namespace Store

variable {store other : Store} {directory : Path} {d : Location} {name : String}
  {content : ByteArray} {IsShared : String → Prop}

/-- Two stores with the same working directory and the same plain directory, in which they hold
    the same under some names. -/
structure AgreeOn (IsShared : String → Prop) (directory : Path) (d : Location)
    (store other : Store) : Prop where
  left : store.IsPlainDirectory directory d
  right : other.IsPlainDirectory directory d
  workingDirectory : store.workingDirectory = other.workingDirectory
  /-- The entries with these names are the same. -/
  entries : ∀ name, IsShared name → store.entryAt (d ++ [name]) = other.entryAt (d ++ [name])

theorem ne_directory_of_file {location : Location} {file : File}
    (h : store.entryAt location = some (.file file)) :
    store.entryAt location ≠ some .directory := by
  rw [h]
  exact fun he => nomatch he

namespace AgreeOn

theorem refl (h : store.IsPlainDirectory directory d) :
    AgreeOn IsShared directory d store store :=
  ⟨h, h, rfl, fun _ _ => rfl⟩

theorem symm (h : AgreeOn IsShared directory d store other) :
    AgreeOn IsShared directory d other store :=
  ⟨h.right, h.left, h.workingDirectory.symm, fun name hn => (h.entries name hn).symm⟩

theorem trans {third : Store} (h : AgreeOn IsShared directory d store other)
    (h' : AgreeOn IsShared directory d other third) :
    AgreeOn IsShared directory d store third :=
  ⟨h.left, h'.right, h.workingDirectory.trans h'.workingDirectory,
    fun name hn => (h.entries name hn).trans (h'.entries name hn)⟩

/-- The same file may come into both. -/
theorem put (h : AgreeOn IsShared directory d store other)
    (hd : store.entryAt (d ++ [name]) ≠ some .directory)
    (hd' : other.entryAt (d ++ [name]) ≠ some .directory) (file : File) :
    AgreeOn IsShared directory d (store.put (d ++ [name]) (.file file))
      (other.put (d ++ [name]) (.file file)) := by
  refine ⟨h.left.put_file hd file, h.right.put_file hd' file, h.workingDirectory,
    fun shared hs => ?_⟩
  by_cases he : d ++ [shared] = d ++ [name]
  · rw [he, entryAt_put_self _ (append_singleton_ne_nil d name),
      entryAt_put_self _ (append_singleton_ne_nil d name)]
  · rw [entryAt_put_of_ne _ _ he, entryAt_put_of_ne _ _ he, h.entries shared hs]

end AgreeOn

/-- A file under another name makes no difference. -/
theorem agreeOn_put (h : store.IsPlainDirectory directory d) (hn : ¬IsShared name)
    (hd : store.entryAt (d ++ [name]) ≠ some .directory) (file : File) :
    AgreeOn IsShared directory d (store.put (d ++ [name]) (.file file)) store := by
  refine ⟨h.put_file hd file, h, rfl, fun shared hs => ?_⟩
  refine entryAt_put_of_ne _ _ (append_singleton_ne ?_)
  rintro rfl
  exact hn hs

namespace AgreeOn

/-! ### Reading -/

theorem readText (h : AgreeOn IsShared directory d store other) (hn : Path.IsEntryName name)
    (hs : IsShared name) :
    store.readText (directory.join name) = other.readText (directory.join name) :=
  readText_join_congr h.right h.left hn (h.entries name hs)

/-! ### Lock files -/

/-- A lock file is opened in both or in neither. -/
theorem openLock (h : AgreeOn IsShared directory d store other) (hn : Path.IsEntryName name)
    (hs : IsShared name) :
    (∃ error, store.openLock (directory.join name) = .error error
        ∧ other.openLock (directory.join name) = .error error)
      ∨ ∃ opened opened', store.openLock (directory.join name) = .ok (d ++ [name], opened)
        ∧ other.openLock (directory.join name) = .ok (d ++ [name], opened')
        ∧ AgreeOn IsShared directory d opened opened' := by
  have hentry := h.entries name hs
  simp only [Store.openLock, h.left.resolve_join hn, h.right.resolve_join hn]
  cases checkPath (directory.join name) with
  | error error => exact Or.inl ⟨error, rfl, rfl⟩
  | ok _ =>
      simp only [Store.lookIn, ← hentry]
      by_cases hl : maxNameLength < name.utf8ByteSize
      · simp only [if_pos hl]
        exact Or.inl ⟨_, rfl, rfl⟩
      · simp only [if_neg hl]
        cases he : store.entryAt (d ++ [name]) with
        | none =>
            -- The same empty file is made in both.
            rw [he] at hentry
            have hnew : store.entryAt (d ++ [name]) ≠ some .directory := by
              rw [he]
              exact (Option.some_ne_none _).symm
            have hnew' : other.entryAt (d ++ [name]) ≠ some .directory := by
              rw [← hentry]
              exact (Option.some_ne_none _).symm
            exact Or.inr ⟨_, _, rfl, rfl, h.put hnew hnew' _⟩
        | some entry =>
            cases entry with
            | directory => exact Or.inl ⟨_, rfl, rfl⟩
            | file file => exact Or.inr ⟨_, _, rfl, rfl, h⟩
            | link target => exact absurd he (h.left.noLinks name target)

theorem isLocked (h : AgreeOn IsShared directory d store other) (hs : IsShared name) :
    store.isLocked (d ++ [name]) = other.isLocked (d ++ [name]) := by
  rw [Store.isLocked, Store.isLocked, h.entries name hs]

/-- The same lock may be set in both. -/
theorem setLocked (h : AgreeOn IsShared directory d store other) (hs : IsShared name)
    (held : Bool) :
    AgreeOn IsShared directory d (store.setLocked (d ++ [name]) held)
      (other.setLocked (d ++ [name]) held) := by
  have hentry := h.entries name hs
  rw [Store.setLocked, Store.setLocked, ← hentry]
  split
  · next file hfile =>
      rw [hfile] at hentry
      exact h.put (ne_directory_of_file hfile) (ne_directory_of_file hentry.symm) _
  · exact h

end AgreeOn

/-- A lock on another file makes no difference. -/
theorem agreeOn_setLocked (h : store.IsPlainDirectory directory d) (hn : ¬IsShared name)
    (held : Bool) :
    AgreeOn IsShared directory d (store.setLocked (d ++ [name]) held) store := by
  rw [setLocked]
  split
  · next file hfile => exact agreeOn_put h hn (ne_directory_of_file hfile) _
  · exact .refl h

/-! ### Replacing -/

theorem temporaryDirectory_congr (h : store.IsPlainDirectory directory d)
    (h' : other.IsPlainDirectory directory d)
    (hw : store.workingDirectory = other.workingDirectory) :
    store.temporaryDirectory directory = other.temporaryDirectory directory := by
  have hpath : store.temporaryPath directory = other.temporaryPath directory := by
    rw [temporaryPath, temporaryPath, workingPath, workingPath, hw]
  unfold temporaryDirectory
  rw [hpath, h.directory, h'.directory]

/-- Where a file is renamed to depends only on what has the new name. -/
theorem renameTarget_join_congr (h : store.directory directory = .ok d)
    (h' : other.directory directory = .ok d) (hn : Path.IsEntryName name)
    (he : store.entryAt (d ++ [name]) = other.entryAt (d ++ [name])) :
    store.renameTarget d (directory.join name) = other.renameTarget d (directory.join name) := by
  have hlook : store.lookIn d name = other.lookIn d name := by
    rw [lookIn, lookIn, he]
  rw [renameTarget, renameTarget, named_join h hn, named_join h' hn, hlook]

/-- Whether a file is replaced is decided by where the new content goes first and last. -/
theorem replaceFile_result (store : Store) (directory path : Path) (content : ByteArray) :
    (store.replaceFile directory path content).1
      = (store.temporaryDirectory directory).bind fun above =>
          ((store.put (above ++ [store.unusedName]) (.file { content := content })).renameTarget
            above path).map fun _ => () := by
  unfold replaceFile
  cases store.temporaryDirectory directory with
  | error error => rfl
  | ok above =>
      dsimp only [Except.bind]
      cases (store.put (above ++ [store.unusedName]) (.file { content := content })).renameTarget
        above path with
      | error error => rfl
      | ok location => rfl

/-- A file is replaced in both or in neither. The two temporary names may differ, as they are
    chosen by what else is there; that is why the name must be none of them. -/
theorem AgreeOn.replaceFile (h : AgreeOn IsShared directory d store other)
    (hn : Path.IsEntryName name) (hs : IsShared name) (hu : name ≠ store.unusedName)
    (hu' : name ≠ other.unusedName) (content : ByteArray) :
    (store.replaceFile directory (directory.join name) content).1
        = (other.replaceFile directory (directory.join name) content).1
      ∧ AgreeOn IsShared directory d
        (store.replaceFile directory (directory.join name) content).2
        (other.replaceFile directory (directory.join name) content).2 := by
  have hresult : (store.replaceFile directory (directory.join name) content).1
      = (other.replaceFile directory (directory.join name) content).1 := by
    rw [replaceFile_result, replaceFile_result,
      temporaryDirectory_congr h.left h.right h.workingDirectory]
    cases ht : other.temporaryDirectory directory with
    | error error => simp only [Except.bind]
    | ok above =>
        have habove : above = d := by
          unfold temporaryDirectory at ht
          rw [h.right.directory] at ht
          split at ht
          · cases ht
          · exact (Except.ok.inj ht).symm
        subst habove
        -- The temporary files are in nobody's way, so the target is judged by the same entry.
        dsimp only [Except.bind]
        rw [renameTarget_join_congr (directory_put_unusedName h.left.directory content)
          (directory_put_unusedName h.right.directory content) hn]
        rw [entryAt_put_of_ne _ _ (append_singleton_ne hu),
          entryAt_put_of_ne _ _ (append_singleton_ne hu'), h.entries name hs]
  refine ⟨hresult, ?_⟩
  rcases hr : store.replaceFile directory (directory.join name) content with ⟨result, after⟩
  rcases hr' : other.replaceFile directory (directory.join name) content with ⟨result', after'⟩
  rw [hr, hr'] at hresult
  rcases replaceFile_join h.left.directory hn hr with ⟨error, hfailed, rfl⟩ | ⟨hdone, rfl, hc⟩
  · rcases replaceFile_join h.right.directory hn hr' with ⟨-, -, rfl⟩ | ⟨hdone', -, -⟩
    · exact h
    · rw [hfailed, hdone'] at hresult
      cases hresult
  · rcases replaceFile_join h.right.directory hn hr' with ⟨error, hfailed', -⟩ | ⟨-, rfl, hc'⟩
    · rw [hdone, hfailed'] at hresult
      cases hresult
    · exact h.put hc.notDirectory hc'.notDirectory _

/-- Replacing a file makes no difference to other names. -/
theorem agreeOn_replaceFile (h : store.IsPlainDirectory directory d) (hn : Path.IsEntryName name)
    (hs : ¬IsShared name) (content : ByteArray) :
    AgreeOn IsShared directory d
      (store.replaceFile directory (directory.join name) content).2 store := by
  rcases hr : store.replaceFile directory (directory.join name) content with ⟨result, after⟩
  rcases replaceFile_join h.directory hn hr with ⟨-, -, rfl⟩ | ⟨-, rfl, hc⟩
  · exact .refl h
  · exact agreeOn_put h hs hc.notDirectory _

end Store

end DnsZones
