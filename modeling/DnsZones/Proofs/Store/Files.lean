import DnsZones.Proofs.Store.Locks

/-!
# Files of a Directory

What the operations on files do when the file is named by a directory and a name
in it.

A directory without links in it makes this simple. A path below it leads to the
location with that name, or nowhere because the text of the path cannot be a
path; which of the two depends on the text and not on the store. So whatever is
done with the path is done at that location, and all other locations stay as they
are.

## Main definitions

* `Store.lookIn`: What is under a name in a directory.
* `Store.IsPlainDirectory`: A directory without links in it.
* `Store.CanHold`: A name in a directory that a file may have.

## Theorems

* `Store.IsPlainDirectory.resolve_join`, `Store.named_join`: A path below a directory.
* `Store.IsPlainDirectory.put_file`: Files may come into a plain directory.
* `Store.readText_join_congr`: What a file holds depends on its location only.
* `Store.openLock_join`: What opening a lock file changes.
* `Store.entryAt_unusedName`: An unused name is one.
* `Store.replaceFile_cases`, `Store.replaceFile_join`: A file is replaced or nothing is changed.
-/

namespace DnsZones

namespace Store

variable {store other after : Store} {directory : Path} {d above : Location} {name : String}
  {content : ByteArray}

/-- What is under a name in a directory. -/
def lookIn (store : Store) (d : Location) (name : String) : Except SystemError Place :=
  if maxNameLength < name.utf8ByteSize then .error .nameTooLong
  else
    match store.entryAt (d ++ [name]) with
    | none => .ok (.vacant (d ++ [name]) false)
    | some entry => .ok (.found (d ++ [name]) entry)

/-- A path that denotes a directory in which there are no links. -/
structure IsPlainDirectory (store : Store) (directory : Path) (d : Location) : Prop where
  /-- The path leads to the location. -/
  directory : store.directory directory = .ok d
  /-- No entry directly below it is a link. -/
  noLinks : ∀ name target, store.entryAt (d ++ [name]) ≠ some (.link target)

/-- A file may be under a name in a directory: the path to it can be a path, the name is not too
    long, and no directory has it. -/
structure CanHold (store : Store) (directory : Path) (d : Location) (name : String) : Prop where
  /-- The text of the path is one. -/
  checked : checkPath (directory.join name) = .ok ()
  /-- The name is not too long. -/
  short : ¬maxNameLength < name.utf8ByteSize
  /-- There is no directory with the name. -/
  notDirectory : store.entryAt (d ++ [name]) ≠ some .directory

/-- A directory with a path is reached along it. -/
theorem walkPath_of_directory (htext : directory.text ≠ "")
    (h : store.directory directory = .ok d) :
    store.walkPath true directory = .ok (.found d .directory) := by
  rw [Store.directory, if_neg (by rw [String.isEmpty_iff]; exact htext), status, resolve] at h
  cases hc : checkPath directory with
  | error error =>
      rw [hc] at h
      cases h
  | ok _ =>
      rw [hc] at h
      cases hw : store.walkPath true directory with
      | error error =>
          rw [hw] at h
          cases h
      | ok place =>
          rw [hw] at h
          cases place with
          | vacant l slash => cases h
          | found l entry =>
              cases entry with
              | directory =>
                  cases h
                  rfl
              | file file => cases h
              | link target => cases h

/-- A directory is at the same location in a store that keeps directories and links. -/
theorem directory_of_extends (hx : Extends store other) (h : store.directory directory = .ok d) :
    other.directory directory = .ok d := by
  -- The empty path denotes the working directory and is never walked along.
  by_cases htext : directory.text = ""
  · rw [Store.directory, if_pos (by rw [htext]; rfl)] at h ⊢
    rw [hx.workingDirectory, h]
  · have hw := walkPath_of_extends hx (walkPath_of_directory htext h)
    have hempty : ¬directory.text.isEmpty = true := by
      rw [String.isEmpty_iff]
      exact htext
    rw [Store.directory, if_neg hempty, status, resolve] at h ⊢
    cases hc : checkPath directory with
    | error error =>
        rw [hc] at h
        cases h
    | ok _ => simp only [hw]

/-- A step to a name comes to what is under the name, unless that is a link and is followed. -/
theorem walk_single {follow : Bool} {links : Nat}
    (hl : follow = true → ∀ target, store.entryAt (d ++ [name]) ≠ some (.link target))
    (hn : Path.IsEntryName name) :
    store.walk follow links d [name] = store.lookIn d name := by
  unfold lookIn
  by_cases hlong : maxNameLength < name.utf8ByteSize
  · rw [if_pos hlong, walk.eq_def]
    simp only [descend_of_tooLong hn.step hn.ne_parent hlong]
  · have hname : IsName name := ⟨hn.step, hn.ne_parent, hlong⟩
    rw [if_neg hlong]
    cases he : store.entryAt (d ++ [name]) with
    | none =>
        refine walk_of_arrived ?_
        rw [descend_of_none hname he]
        rfl
    | some entry =>
        cases entry with
        | directory =>
            refine walk_of_arrived ?_
            rw [descend_of_passes (.enter hname he), descend, he]
        | file file =>
            refine walk_of_arrived ?_
            rw [descend_of_file hname he]
            rfl
        | link target =>
            cases follow with
            | false =>
                refine walk_of_arrived ?_
                rw [descend_of_link hname he]
                rfl
            | true => exact absurd he (hl rfl target)

/-- Segments that say nothing lead nowhere else. -/
theorem descend_append_of_steps_nil {follow : Bool} {here : Location} {xs : List String}
    (h : Path.steps xs = []) (ys : List String) :
    store.descend follow here (xs ++ ys) = store.descend follow here ys := by
  induction xs with
  | nil => rfl
  | cons segment rest ih =>
      rw [Path.steps, List.filter_eq_nil_iff] at h
      have hsegment : Path.isStep segment = false := by
        rw [← Bool.not_eq_true]
        exact h segment List.mem_cons_self
      rw [List.cons_append, descend_of_passes (.stay hsegment)]
      exact ih (List.filter_eq_nil_iff.mpr fun x hx => h x (List.mem_cons_of_mem _ hx))

/-- A walk along a path to a name in a directory comes to what is under the name there, unless that
    is a link and is followed. -/
theorem walk_join {follow : Bool} (h : store.directory directory = .ok d)
    (hl : follow = true → ∀ target, store.entryAt (d ++ [name]) ≠ some (.link target))
    (hn : Path.IsEntryName name) :
    store.walk follow maxLinks (startOf store.workingDirectory (directory.join name))
      (directory.join name).segments = store.lookIn d name := by
  rcases Path.exists_segments_join directory hn.noSlash with ⟨xs, hxs, hsteps⟩
  rw [hxs, startOf, Path.isAbsolute_join directory hn.noSlash]
  by_cases htext : directory.text = ""
  · -- The empty path has no steps, so the walk starts in the directory itself.
    rw [Store.directory, if_pos (by rw [htext]; rfl)] at h
    cases h
    have hstart : directory.isAbsolute = false := by
      rw [Path.isAbsolute, htext]
      rfl
    have hnone : Path.steps xs = [] := by
      rw [hsteps, Path.segments, htext]
      rfl
    rw [hstart, if_neg Bool.false_ne_true,
      walk_eq_of_descend_eq (descend_append_of_steps_nil hnone [name])]
    exact walk_single hl hn
  · -- Otherwise the walk passes through the directory, with the name left to go.
    have hw := walk_of_steps_eq hsteps.symm (walkPath_of_directory htext h)
    have hgo : ∃ left, store.walk follow maxLinks (startOf store.workingDirectory directory)
        (xs ++ [name]) = store.walk follow left d [name] :=
      walk_append_of_found hw (List.cons_ne_nil name [])
    rcases hgo with ⟨left, hleft⟩
    rw [startOf] at hleft
    rw [hleft]
    exact walk_single hl hn

/-- What a path to a name in a directory names: a link there is not followed. -/
theorem named_join (h : store.directory directory = .ok d) (hn : Path.IsEntryName name) :
    store.named (directory.join name)
      = match checkPath (directory.join name) with
        | .error error => .error error
        | .ok () => store.lookIn d name := by
  rw [named, if_pos (Path.endsInName_join directory hn),
    Path.withoutFinalSlashes_of_not_endsInSlash (Path.endsInSlash_join directory hn)]
  cases checkPath (directory.join name) with
  | error error => rfl
  | ok _ => exact walk_join h (fun hf => absurd hf Bool.false_ne_true) hn

namespace IsPlainDirectory

theorem resolve_join (h : IsPlainDirectory store directory d) (hn : Path.IsEntryName name) :
    store.resolve true (directory.join name)
      = match checkPath (directory.join name) with
        | .error error => .error error
        | .ok () => store.lookIn d name := by
  rw [resolve]
  cases checkPath (directory.join name) with
  | error error => rfl
  | ok _ => exact walk_join h.directory (fun _ => h.noLinks name) hn

theorem put_file (h : IsPlainDirectory store directory d)
    (hd : store.entryAt (d ++ [name]) ≠ some .directory) (file : File) :
    IsPlainDirectory (store.put (d ++ [name]) (.file file)) directory d := by
  refine ⟨directory_of_extends (Extends.put hd (h.noLinks name) _) h.directory,
    fun other target he => ?_⟩
  by_cases ho : d ++ [other] = d ++ [name]
  · rw [ho, entryAt_put_self _ (append_singleton_ne_nil d name)] at he
    cases he
  · rw [entryAt_put_of_ne _ _ ho] at he
    exact h.noLinks other target he

theorem unlocked (h : IsPlainDirectory store directory d) :
    IsPlainDirectory store.unlocked directory d := by
  refine ⟨(directory_unlocked store directory).trans h.directory, fun name target he => ?_⟩
  rw [entryAt_unlocked] at he
  rcases Option.map_eq_some_iff.mp he with ⟨entry, hentry, hu⟩
  cases entry with
  | directory => cases hu
  | file file => cases hu
  | link there => exact h.noLinks name there hentry

theorem of_unlocked (h : IsPlainDirectory store.unlocked directory d) :
    IsPlainDirectory store directory d := by
  refine ⟨(directory_unlocked store directory).symm.trans h.directory, fun name target he => ?_⟩
  refine h.noLinks name target ?_
  rw [entryAt_unlocked, he]
  rfl

end IsPlainDirectory

/-! ### Reading -/

/-- What a file holds depends only on what is at its location. -/
theorem readText_join_congr (h : IsPlainDirectory store directory d)
    (h' : IsPlainDirectory other directory d) (hn : Path.IsEntryName name)
    (he : other.entryAt (d ++ [name]) = store.entryAt (d ++ [name])) :
    other.readText (directory.join name) = store.readText (directory.join name) := by
  have hlook : other.lookIn d name = store.lookIn d name := by
    rw [lookIn, lookIn, he]
  rw [readText, readText, file, file, status, status, h.resolve_join hn, h'.resolve_join hn, hlook]

/-- A file at its location is found under its path, if that is one. -/
theorem readText_join_of_file (h : IsPlainDirectory store directory d) (hn : Path.IsEntryName name)
    (hc : checkPath (directory.join name) = .ok ()) (hs : ¬maxNameLength < name.utf8ByteSize)
    {file : File} (he : store.entryAt (d ++ [name]) = some (.file file)) {text : String}
    (ht : String.fromUTF8? file.content = some text) :
    store.readText (directory.join name) = .ok text := by
  rw [readText, Store.file, status, h.resolve_join hn, hc]
  simp only [lookIn, if_neg hs, he, ht]

/-! ### Lock files -/

/-- Opening a lock file changes nothing but that it may make the file. -/
theorem openLock_join (h : IsPlainDirectory store directory d) (hn : Path.IsEntryName name)
    {location : Location} (ho : store.openLock (directory.join name) = .ok (location, after)) :
    location = d ++ [name]
      ∧ (after = store ∧ (∃ file, store.entryAt location = some (.file file))
        ∨ store.entryAt location = none
          ∧ after = store.put location (.file { content := ByteArray.empty })) := by
  rw [openLock, h.resolve_join hn] at ho
  cases hc : checkPath (directory.join name) with
  | error error =>
      rw [hc] at ho
      cases ho
  | ok _ =>
      simp only [hc, lookIn] at ho
      by_cases hs : maxNameLength < name.utf8ByteSize
      · rw [if_pos hs] at ho
        cases ho
      · rw [if_neg hs] at ho
        cases he : store.entryAt (d ++ [name]) with
        | none =>
            rw [he] at ho
            cases ho
            exact ⟨rfl, Or.inr ⟨he, rfl⟩⟩
        | some entry =>
            rw [he] at ho
            cases entry with
            | directory => cases ho
            | file file =>
                cases ho
                exact ⟨rfl, Or.inl ⟨rfl, file, he⟩⟩
            | link target => cases ho

theorem openLock_of_canHold (h : IsPlainDirectory store directory d) (hn : Path.IsEntryName name)
    (hc : store.CanHold directory d name) :
    ∃ opened, store.openLock (directory.join name) = .ok (d ++ [name], opened) := by
  rw [openLock, h.resolve_join hn, hc.checked]
  simp only [lookIn, if_neg hc.short]
  cases he : store.entryAt (d ++ [name]) with
  | none => exact ⟨_, rfl⟩
  | some entry =>
      cases entry with
      | directory => exact absurd he hc.notDirectory
      | file file => exact ⟨_, rfl⟩
      | link target => exact absurd he (h.noLinks name target)

/-! ### Replacing -/

theorem length_le_longest {entries : List (Location × Entry)} {e : Location × Entry}
    (h : e ∈ entries) (n : Nat) : ((e.1.getLast?.getD "").length)
      ≤ entries.foldl (fun n e => max n ((e.1.getLast?.getD "").length)) n := by
  -- A maximum never gets smaller as more names come in.
  have hmono : ∀ (entries : List (Location × Entry)) (n : Nat),
      n ≤ entries.foldl (fun n e => max n ((e.1.getLast?.getD "").length)) n := by
    intro entries
    induction entries with
    | nil => exact fun n => Nat.le_refl n
    | cons first rest ih => exact fun n => Nat.le_trans (Nat.le_max_left _ _) (ih _)
  induction entries generalizing n with
  | nil => cases h
  | cons first rest ih =>
      rw [List.foldl_cons]
      rcases List.mem_cons.mp h with rfl | h
      · exact Nat.le_trans (Nat.le_max_right n _) (hmono rest _)
      · exact ih h _

theorem entryAt_unusedName (store : Store) (d : Location) :
    store.entryAt (d ++ [store.unusedName]) = none := by
  rw [entryAt_of_ne _ (append_singleton_ne_nil d _), Table.get?_eq_none_iff]
  intro entry hm
  have hle := length_le_longest hm 0
  rw [List.getLast?_concat, Option.getD_some] at hle
  have hlength : store.unusedName.length = 4 + (store.entries.entries.foldl
      (fun n e => max n ((e.1.getLast?.getD "").length)) 0 + 1) := by
    simp only [unusedName, String.length_append, String.length_ofList, List.length_replicate]
    rfl
  omega

/-- An unused name ends in a letter that other names may not end in. -/
theorem ne_unusedName (store : Store) {c : Char} (hc : c ≠ 'x')
    (h : name.toList.getLast? = some c) : name ≠ store.unusedName := by
  intro he
  have hlast : store.unusedName.toList.getLast? = some 'x' := by
    simp only [unusedName, String.toList_append, String.toList_ofList, List.getLast?_append,
      List.replicate_succ']
    rfl
  rw [he, hlast] at h
  exact hc (Option.some.inj h).symm

theorem append_singleton_ne {other : String} (h : other ≠ name) : d ++ [other] ≠ d ++ [name] :=
  fun he => h (List.singleton_inj.mp (List.append_cancel_left he))

/-- A file is only renamed to a path that ends in a name, and only to a free place or to an entry
    that is no directory. -/
theorem renameTarget_ok {location : Location} {path : Path}
    (h : store.renameTarget d path = .ok location) :
    path.endsInName = true ∧ path.endsInSlash = false
      ∧ ((∃ slash, store.named path = .ok (.vacant location slash))
        ∨ ∃ entry, entry ≠ .directory ∧ store.named path = .ok (.found location entry)) := by
  unfold renameTarget at h
  split at h
  · cases h
  · split at h
    · cases h
    · next place hplace =>
        split at h
        · cases h
        · next hname =>
            split at h
            · cases h
            · next hslash =>
                refine ⟨by simpa using hname, by simpa using hslash, ?_⟩
                split at h
                · cases h
                  exact Or.inl ⟨_, hplace⟩
                · cases h
                · next entry hentry =>
                    cases h
                    exact Or.inr ⟨entry, hentry, hplace⟩

/-- What is looked up in a directory has the name there, and the name is not too long. -/
theorem lookIn_ok {place : Place} (h : store.lookIn d name = .ok place) :
    ¬maxNameLength < name.utf8ByteSize
      ∧ (store.entryAt (d ++ [name]) = none ∧ place = .vacant (d ++ [name]) false
        ∨ ∃ entry, store.entryAt (d ++ [name]) = some entry
          ∧ place = .found (d ++ [name]) entry) := by
  unfold lookIn at h
  split at h
  · cases h
  · next hshort =>
      refine ⟨hshort, ?_⟩
      split at h
      · next hnone =>
          cases h
          exact Or.inl ⟨hnone, rfl⟩
      · next entry hentry =>
          cases h
          exact Or.inr ⟨entry, hentry, rfl⟩

/-- A file is renamed to a name in a directory only if no directory has the name. -/
theorem of_renameTarget_lookIn {location : Location} {path : Path}
    (hr : store.renameTarget above path = .ok location)
    (hl : store.named path = store.lookIn d name) :
    location = d ++ [name] ∧ ¬maxNameLength < name.utf8ByteSize
      ∧ store.entryAt (d ++ [name]) ≠ some .directory := by
  rcases renameTarget_ok hr with ⟨-, -, ⟨slash, hplace⟩ | ⟨entry, hentry, hplace⟩⟩
  · rcases lookIn_ok (hl.symm.trans hplace) with ⟨hshort, ⟨hnone, hfound⟩ | ⟨_, -, hfound⟩⟩
    · cases hfound
      exact ⟨rfl, hshort, by rw [hnone]; exact nofun⟩
    · cases hfound
  · rcases lookIn_ok (hl.symm.trans hplace) with ⟨hshort, ⟨-, hfound⟩ | ⟨_, hthere, hfound⟩⟩
    · cases hfound
    · cases hfound
      exact ⟨rfl, hshort, by rw [hthere]; exact fun he => hentry (Option.some.inj he)⟩

/-- Where a temporary file is renamed to, when it is to take a name in its directory. -/
theorem renameTarget_join (h : store.directory directory = .ok d) (hn : Path.IsEntryName name)
    {location : Location} (hr : store.renameTarget d (directory.join name) = .ok location) :
    location = d ++ [name] ∧ store.CanHold directory d name := by
  have hnamed := named_join h hn
  cases hc : checkPath (directory.join name) with
  | error error =>
      -- Renaming would have failed as well.
      have hnone : ∀ place, store.named (directory.join name) ≠ .ok place := by
        intro place hplace
        rw [hplace, hc] at hnamed
        cases hnamed
      rcases renameTarget_ok hr with ⟨-, -, ⟨_, hplace⟩ | ⟨_, -, hplace⟩⟩
      · exact absurd hplace (hnone _)
      · exact absurd hplace (hnone _)
  | ok _ =>
      rw [hc] at hnamed
      rcases of_renameTarget_lookIn hr hnamed with ⟨hl, hshort, hd⟩
      exact ⟨hl, hc, hshort, hd⟩

theorem renameTarget_of_canHold (h : store.directory directory = .ok d)
    (hn : Path.IsEntryName name) (hc : store.CanHold directory d name) :
    store.renameTarget d (directory.join name) = .ok (d ++ [name]) := by
  have hnul : hasNul (directory.join name) = false := by
    have hchecked := hc.checked
    rw [checkPath] at hchecked
    split at hchecked
    · cases hchecked
    · next hnul => exact Bool.eq_false_iff.mpr hnul
  rw [renameTarget, hnul, named_join h hn, hc.checked]
  simp only [Bool.false_eq_true, if_false, lookIn, if_neg hc.short,
    Path.endsInName_join directory hn, Path.endsInSlash_join directory hn, Bool.not_true]
  cases he : store.entryAt (d ++ [name]) with
  | none => rfl
  | some entry =>
      cases entry with
      | directory => exact absurd he hc.notDirectory
      | file file => rfl
      | link target => rfl

theorem directory_put_unusedName (h : store.directory directory = .ok d) (content : ByteArray) :
    (store.put (d ++ [store.unusedName]) (.file { content := content })).directory directory
      = .ok d :=
  directory_of_extends (Extends.put_new (entryAt_unusedName store d) _) h

/-- A temporary file is in nobody's way. It may even have the name already that it is to take. -/
theorem canHold_put_unusedName (content : ByteArray) :
    (store.put (d ++ [store.unusedName]) (.file { content := content })).CanHold directory d name
      ↔ store.CanHold directory d name := by
  have hdirectory : (store.put (d ++ [store.unusedName]) (.file { content := content })).entryAt
        (d ++ [name]) = some .directory
      ↔ store.entryAt (d ++ [name]) = some .directory := by
    by_cases hu : name = store.unusedName
    · rw [hu, entryAt_put_self _ (append_singleton_ne_nil d _), entryAt_unusedName]
      exact iff_of_false nofun nofun
    · rw [entryAt_put_of_ne _ _ (append_singleton_ne hu)]
  exact ⟨fun h => ⟨h.checked, h.short, fun he => h.notDirectory (hdirectory.mpr he)⟩,
    fun h => ⟨h.checked, h.short, fun he => h.notDirectory (hdirectory.mp he)⟩⟩

/-- Replacing a file either puts the new content where the temporary file is renamed to, or changes
    nothing. -/
theorem replaceFile_cases {path : Path} {result : Except SystemError Unit}
    (h : store.replaceFile directory path content = (result, after)) :
    (∃ error, result = .error error ∧ after = store)
      ∨ ∃ above location, result = .ok () ∧ store.directory directory = .ok above
        ∧ (store.put (above ++ [store.unusedName]) (.file { content := content })).renameTarget
          above path = .ok location
        ∧ after = store.put location (.file { content := content }) := by
  unfold replaceFile at h
  split at h
  · next error ht =>
      cases h
      exact Or.inl ⟨error, rfl, rfl⟩
  · next above ht =>
      have hdelete := delete_put store (append_singleton_ne_nil above _)
        (entryAt_unusedName store above) (.file { content := content })
      dsimp only at h
      split at h
      · -- The new name is taken back, which leaves the store as it was.
        next error hq =>
          cases h
          exact Or.inl ⟨error, rfl, hdelete⟩
      · next location hq =>
          cases h
          refine Or.inr ⟨above, location, rfl, ?_, hq, by rw [hdelete]⟩
          unfold temporaryDirectory at ht
          split at ht
          · cases ht
          · exact ht

/-- Replacing a file of a directory either puts the new content at its location, or changes
    nothing. -/
theorem replaceFile_join (h : store.directory directory = .ok d) (hn : Path.IsEntryName name)
    {result : Except SystemError Unit}
    (hr : store.replaceFile directory (directory.join name) content = (result, after)) :
    (∃ error, result = .error error ∧ after = store)
      ∨ result = .ok () ∧ after = store.put (d ++ [name]) (.file { content := content })
        ∧ store.CanHold directory d name := by
  rcases replaceFile_cases hr with hfailed | ⟨above, location, hresult, ha, hq, hafter⟩
  · exact Or.inl hfailed
  · -- The temporary file is made in the same directory, where it is in nobody's way.
    cases h.symm.trans ha
    rcases renameTarget_join (directory_put_unusedName h content) hn hq with ⟨rfl, hc⟩
    exact Or.inr ⟨hresult, hafter, (canHold_put_unusedName content).mp hc⟩

/-- Replacing a file succeeds where a file may be, if there is room for the path under which it is
    first written. -/
theorem replaceFile_of_canHold (h : store.directory directory = .ok d)
    (hn : Path.IsEntryName name) (hc : store.CanHold directory d name)
    (ht : checkPath (store.temporaryPath directory) = .ok ()) (content : ByteArray) :
    store.replaceFile directory (directory.join name) content
      = (.ok (), store.put (d ++ [name]) (.file { content := content })) := by
  have htemporary : store.temporaryDirectory directory = .ok d := by
    unfold temporaryDirectory
    rw [ht, h]
  unfold replaceFile
  rw [htemporary]
  dsimp only
  rw [renameTarget_of_canHold (directory_put_unusedName h content) hn
    ((canHold_put_unusedName content).mpr hc)]
  dsimp only
  rw [delete_put store (append_singleton_ne_nil d _) (entryAt_unusedName store d)]

end Store

end DnsZones
