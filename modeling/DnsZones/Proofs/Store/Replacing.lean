import DnsZones.Proofs.Store.Rereading
import DnsZones.Proofs.Store.Ways
import Mathlib.Logic.Relation

/-!
# Replacing a File, Call by Call

What is in the store while a file is replaced, and what is left when that is over.

A file is replaced in four calls: one makes an empty file under an unused name, one
or more fill it, one makes sure that it is on the disk, and one renames it. Each of
them can fail, for reasons that have nothing to do with what is in the store, such
as a full disk. After a failure the file under the unused name is removed, if there
is one by then.

Until the last call nothing is changed but at the unused name, where nothing was.
So whatever the calls do, anybody who looks at what was there before sees it as it
was, or sees the new file as a whole. In the end either the new file is there and
nothing else has changed, or nothing has changed at all.

The file comes to the location that the path named before, in place of a file or a
link or of nothing. Afterwards the path leads to it, unless the way along the path
went along the very link that was replaced: then that way is closed.

## Main definitions

* `Replacing.Progress`, `Replacing.Call`: How far the calls have come, and what each of them does.
* `Replacing.Keeps`: What holds in between.
* `Store.Names`: The place for a file that a path names.
* `Store.Replaced`: What is left if all calls succeeded.

## Theorems

* `Replacing.keeps_of_call`, `Replacing.keeps_of_calls`: One call, and any number of them.
* `Replacing.entryAt_of_calls`: What was there is there until the last call.
* `Replacing.names_of_calls`, `Replacing.eq_of_calls`: How the calls end.
* `Store.Names.replaced`: What a file in the place of another changes.
* `Store.Names.status_of_readText`: A file in the place of one that could be read is found.
* `Replacing.calls_replaceFile`: A run without failures of its own.
-/

namespace DnsZones

/-- Where a place is. -/
def Place.location : Place → Location
  | .found location _ => location
  | .vacant location _ => location

namespace Store

variable {store before after : Store} {above location : Location} {name temporary : String}
  {directory path : Path} {content : ByteArray}

/-! ### Where the file comes -/

/-- The file that a path names has been replaced, and nothing else was changed. -/
structure Replaced (before : Store) (path : Path) (content : ByteArray) (location : Location)
    (after : Store) : Prop where
  /-- The path named the location, where no directory was. -/
  named : before.named path = .ok (.vacant location false)
    ∨ ∃ entry, entry ≠ .directory ∧ before.named path = .ok (.found location entry)
  /-- There is a file now, with the new content. -/
  entry : after.entryAt location = some (.file { content := content })
  /-- Everything else is as it was. -/
  others : ∀ other, other ≠ location → after.entryAt other = before.entryAt other
  /-- The path leads to the file. -/
  found : ¬before.LeadsAlong false path location →
    after.status path = .ok (location, .file { content := content })
  /-- If the path went along the link that was there, it leads nowhere. -/
  lost : before.LeadsAlong false path location → after.status path = .error .notDirectory

/-- What a path that ends in a name denotes is found by a walk that does not follow the end. -/
theorem named_eq_walk (hname : path.endsInName = true) (hslash : path.endsInSlash = false)
    (hc : checkPath path = .ok ()) (store : Store) :
    store.named path
      = store.walk false maxLinks (startOf store.workingDirectory path) path.segments := by
  simp only [named, hc, if_pos hname, Path.withoutFinalSlashes_of_not_endsInSlash hslash, walkPath]

/-- The location of what is under a name, or would be there. -/
theorem location_of_lookIn {d : Location} {place : Place}
    (h : store.lookIn d name = .ok place) : place.location = d ++ [name] := by
  rcases lookIn_ok h with ⟨-, ⟨-, rfl⟩ | ⟨_, -, rfl⟩⟩
  · rfl
  · rfl

/-- A path below a directory leads to the file that has the name there. -/
theorem status_join_of_file (h : store.directory directory = .ok above)
    (hn : Path.IsEntryName name) (hc : checkPath (directory.join name) = .ok ())
    (hs : ¬maxNameLength < name.utf8ByteSize) {file : File}
    (he : store.entryAt (above ++ [name]) = some (.file file)) :
    store.status (directory.join name) = .ok (above ++ [name], .file file) := by
  have hnoLink : ∀ target, store.entryAt (above ++ [name]) ≠ some (.link target) := by
    rw [he]
    exact fun _ hl => Entry.noConfusion (Option.some.inj hl)
  have hwalk : store.walkPath true (directory.join name) = store.lookIn above name :=
    walk_join h (fun _ => hnoLink) hn
  simp only [status, resolve, hc, hwalk, lookIn, if_neg hs, he]

/-- A path that names an entry of a directory, one that a file may replace. The directory is where
    a walk along the path comes at last; it need not be found by a way of its own. -/
structure Names (store : Store) (path : Path) (d : Location) (name : String) : Prop where
  checked : checkPath path = .ok ()
  endsInName : path.endsInName = true
  noFinalSlash : path.endsInSlash = false
  last : path.segments.getLast? = some name
  entryName : Path.IsEntryName name
  short : ¬maxNameLength < name.utf8ByteSize
  walk : store.walk false maxLinks (startOf store.workingDirectory path) path.segments
    = store.lookIn d name
  notDirectory : store.entryAt (d ++ [name]) ≠ some .directory

theorem exists_named_of_renameTarget (h : store.renameTarget above path = .ok location) :
    ∃ place, store.named path = .ok place := by
  rcases renameTarget_ok h with ⟨-, -, ⟨_, hp⟩ | ⟨_, -, hp⟩⟩
  · exact ⟨_, hp⟩
  · exact ⟨_, hp⟩

/-- Where a file is renamed to that was made under an unused name is what the path named before. -/
theorem names_of_renameTarget (hnone : store.entryAt (above ++ [temporary]) = none)
    (hr : (store.put (above ++ [temporary]) (.file { content := content })).renameTarget above path
      = .ok location) : ∃ d name, location = d ++ [name] ∧ Names store path d name := by
  have hnew := append_singleton_ne_nil above temporary
  rcases renameTarget_ok hr with ⟨hname, hslash, -⟩
  rcases Path.exists_segments_of_endsInName hname hslash with ⟨xs, name, hxs, hn⟩
  have hlast : path.segments.getLast? = some name := by
    rw [hxs, List.getLast?_concat]
  rcases exists_named_of_renameTarget hr with ⟨place, hplace⟩
  cases hc : checkPath path with
  | error error =>
      rw [named, hc] at hplace
      cases hplace
  | ok _ =>
      -- The walk goes the same way without the file under the unused name, which is no link.
      have hwalk := hplace
      rw [named_eq_walk hname hslash hc] at hwalk
      rcases (SameBut.of_put_file hnew _).walk_eq_lookIn hn hlast hwalk
        (GoesAlong.not_put_file hnew _) with ⟨d, hlook, hsame⟩
      rcases of_renameTarget_lookIn hr (hplace.trans hlook.symm) with ⟨hl, hshort, hdirectory⟩
      refine ⟨d, name, hl, hc, hname, hslash, hlast, hn, hshort,
        hsame false fun hf => absurd hf Bool.false_ne_true, fun hd => ?_⟩
      exact hdirectory ((Extends.put_new hnone _).directory _ hd)

namespace Names

variable {d : Location} {below : String}

theorem named (h : Names store path d name) : store.named path = store.lookIn d name :=
  (named_eq_walk h.endsInName h.noFinalSlash h.checked store).trans h.walk

theorem exists_lookIn (h : Names store path d name) :
    ∃ place, store.lookIn d name = .ok place := by
  rw [lookIn, if_neg h.short]
  split
  · exact ⟨_, rfl⟩
  · exact ⟨_, rfl⟩

theorem named_cases (h : Names store path d name) :
    store.named path = .ok (.vacant (d ++ [name]) false)
      ∨ ∃ entry, entry ≠ .directory ∧ store.named path = .ok (.found (d ++ [name]) entry) := by
  rw [h.named, lookIn, if_neg h.short]
  cases he : store.entryAt (d ++ [name]) with
  | none => exact Or.inl rfl
  | some entry => exact Or.inr ⟨entry, fun hd => h.notDirectory (hd ▸ he), rfl⟩

/-- A path to an entry of a directory names that entry. -/
theorem append_eq_of_join (h : Names store (directory.join below) d name)
    (hd : store.directory directory = .ok above) (hslash : '/' ∉ below.toList) :
    Path.IsEntryName below ∧ d ++ [name] = above ++ [below] := by
  have hn := Path.isEntryName_of_join hslash h.endsInName h.noFinalSlash
  have hnamed := named_join hd hn
  simp only [h.checked] at hnamed
  rcases h.exists_lookIn with ⟨place, hplace⟩
  have hthere := location_of_lookIn (hnamed.symm.trans (h.named.trans hplace))
  exact ⟨hn, (location_of_lookIn hplace).symm.trans hthere⟩

/-- A file that is put where the path names it replaces what was there. -/
theorem replaced (h : Names store path d name) (content : ByteArray) :
    Replaced store path content (d ++ [name])
      (store.put (d ++ [name]) (.file { content := content })) := by
  have hput := SameBut.put h.notDirectory (.file { content := content })
  have hthere := entryAt_put_self store (append_singleton_ne_nil d name)
    (.file { content := content })
  rcases h.exists_lookIn with ⟨place, hplace⟩
  have hway := h.walk.trans hplace
  have hresolve : (store.put (d ++ [name]) (.file { content := content })).resolve true path
      = (store.put (d ++ [name]) (.file { content := content })).walk true maxLinks
        (startOf store.workingDirectory path) path.segments := by
    simp only [resolve, h.checked]
    rfl
  refine ⟨h.named_cases, hthere, fun other hne => entryAt_put_of_ne _ _ hne, fun hnot => ?_,
    fun halong => ?_⟩
  · rcases hput.walk_eq_lookIn h.entryName h.last hway hnot with ⟨d', hlook, hsame⟩
    cases List.append_cancel_right
      ((location_of_lookIn hlook).symm.trans (location_of_lookIn hplace))
    have hnoLink : ∀ target, (store.put (d ++ [name]) (.file { content := content })).entryAt
        (d ++ [name]) ≠ some (.link target) := by
      rw [hthere]
      exact fun _ he => Entry.noConfusion (Option.some.inj he)
    have hwalk := hsame true fun _ => hnoLink
    rw [status, hresolve, hwalk, lookIn, if_neg h.short, hthere]
  · rw [status, hresolve, hput.walk_of_goesAlong hthere hway halong true]

/-- A file that comes where a path names it is found there, if the path could be read before or led
    to nothing. If a file was there, the path led to it. -/
theorem status_of_readText (h : Names store path d name)
    (hs : store.IsSolid (startOf store.workingDirectory path))
    (hread : store.readText path = .error .notFound ∨ ∃ text, store.readText path = .ok text)
    (file : File) :
    (∀ old, store.entryAt (d ++ [name]) = some (.file old) →
        store.status path = .ok (d ++ [name], .file old))
      ∧ (store.put (d ++ [name]) (.file file)).status path = .ok (d ++ [name], .file file) := by
  rcases h.exists_lookIn with ⟨place, hplace⟩
  rcases exists_namesIn_of_named hs h.endsInName h.noFinalSlash (h.named.trans hplace) with
    ⟨xs, d', name', hnames, hd, hlook⟩
  have hsame : d' ++ [name'] = d ++ [name] :=
    (location_of_lookIn (hlook.symm.trans (h.named.trans hplace))).symm.trans
      (location_of_lookIn hplace)
  have hthere := entryAt_put_self store (append_singleton_ne_nil d' name') (.file file)
  rw [← hsame]
  refine ⟨fun old hold => hnames.status_eq hold ?_, ?_⟩
  · exact fun _ hl => by cases hl
  · exact (hnames.put_file hd hread file).status_eq hthere fun _ hl => by cases hl

end Names

end Store

namespace Replacing

variable {before after : Store} {directory path : Path} {content : ByteArray}

/-! ### The calls -/

/-- How far the replacing of a file has come. -/
inductive Progress where
  | begun
  /-- There is a file under an unused name of a directory, and these bytes are left to write. -/
  | filling (above : Location) (name : String) (left : ByteArray)
  /-- The file is on the disk. -/
  | filled (above : Location) (name : String)
  | ended (result : Except SystemError Unit)

/-- One call of those that replace a file, with what it does to the store. -/
inductive Call (directory path : Path) (content : ByteArray) :
    Store × Progress → Store × Progress → Prop where
  /-- An empty file is made under any name that is not in use. -/
  | create {store : Store} {above : Location} {name : String}
    (hd : store.temporaryDirectory directory = .ok above)
    (hnone : store.entryAt (above ++ [name]) = none) :
    Call directory path content (store, .begun)
      (store.put (above ++ [name]) (.file { content := ByteArray.empty }),
        .filling above name content)
  /-- Some of the bytes that are left are written. -/
  | write {store : Store} {above : Location} {name : String} {file : File} {chunk left : ByteArray}
    (hf : store.entryAt (above ++ [name]) = some (.file file)) :
    Call directory path content (store, .filling above name (chunk ++ left))
      (store.put (above ++ [name]) (.file { file with content := file.content ++ chunk }),
        .filling above name left)
  /-- The whole file goes to the disk. -/
  | sync {store : Store} {above : Location} {name : String} :
    Call directory path content (store, .filling above name ByteArray.empty)
      (store, .filled above name)
  /-- The file gets its own name, and loses the other. -/
  | rename {store : Store} {above location : Location} {name : String} {entry : Entry}
    (hf : store.entryAt (above ++ [name]) = some entry)
    (hr : store.renameTarget above path = .ok location) :
    Call directory path content (store, .filled above name)
      ((store.delete (above ++ [name])).put location entry, .ended (.ok ()))
  /-- No file could be made. -/
  | notCreated {store : Store} (error : SystemError) :
    Call directory path content (store, .begun) (store, .ended (.error error))
  /-- The file could not be written, or not to the disk, and is removed. -/
  | notFilled {store : Store} {above : Location} {name : String} {left : ByteArray}
    (error : SystemError) :
    Call directory path content (store, .filling above name left)
      (store.delete (above ++ [name]), .ended (.error error))
  /-- The file could not be renamed, and is removed. -/
  | notRenamed {store : Store} {above : Location} {name : String} (error : SystemError) :
    Call directory path content (store, .filled above name)
      (store.delete (above ++ [name]), .ended (.error error))

/-- Any number of calls, from when nothing has been done. -/
def Calls (before : Store) (directory path : Path) (content : ByteArray)
    (state : Store × Progress) : Prop :=
  Relation.ReflTransGen (Call directory path content) (before, .begun) state

/-! ### In between -/

/-- What holds however far the calls have come: there is a file under an unused name of the
    directory, with what has been written of it; or it is where the path named it; or everything is
    as it was. -/
def Keeps (before : Store) (directory path : Path) (content : ByteArray) :
    Store × Progress → Prop
  | (store, .begun) => store = before
  | (store, .filling above name left) =>
    before.temporaryDirectory directory = .ok above ∧ before.entryAt (above ++ [name]) = none
      ∧ ∃ written, written ++ left = content
        ∧ store = before.put (above ++ [name]) (.file { content := written })
  | (store, .filled above name) =>
    before.temporaryDirectory directory = .ok above ∧ before.entryAt (above ++ [name]) = none
      ∧ store = before.put (above ++ [name]) (.file { content := content })
  | (store, .ended (.error _)) => store = before
  | (store, .ended (.ok _)) =>
    ∃ above d name, before.temporaryDirectory directory = .ok above
      ∧ Store.Names before path d name
      ∧ store = before.put (d ++ [name]) (.file { content := content })

theorem keeps_of_call {state state' : Store × Progress}
    (hk : Keeps before directory path content state)
    (h : Call directory path content state state') :
    Keeps before directory path content state' := by
  cases h with
  | @create store above name hd hnone =>
      cases hk
      exact ⟨hd, hnone, ByteArray.empty, ByteArray.empty_append, rfl⟩
  | @write store above name file chunk left hf =>
      rcases hk with ⟨hd, hnone, written, hcontent, rfl⟩
      rw [Store.entryAt_put_self _ (Store.append_singleton_ne_nil above name)] at hf
      cases hf
      refine ⟨hd, hnone, written ++ chunk, ?_, Store.put_put before _ _ _⟩
      rw [ByteArray.append_assoc, hcontent]
  | sync =>
      rcases hk with ⟨hd, hnone, written, hcontent, rfl⟩
      rw [ByteArray.append_empty] at hcontent
      exact ⟨hd, hnone, by rw [hcontent]⟩
  | @rename store above location name entry hf hr =>
      rcases hk with ⟨hd, hnone, rfl⟩
      have hnew := Store.append_singleton_ne_nil above name
      rw [Store.entryAt_put_self _ hnew] at hf
      cases hf
      rcases Store.names_of_renameTarget hnone hr with ⟨d, last, rfl, hnames⟩
      rw [Keeps, Store.delete_put before hnew hnone]
      exact ⟨above, d, last, hd, hnames, rfl⟩
  | notCreated error => exact hk
  | @notFilled store above name left error =>
      rcases hk with ⟨-, hnone, written, -, rfl⟩
      exact Store.delete_put before (Store.append_singleton_ne_nil above name) hnone _
  | @notRenamed store above name error =>
      rcases hk with ⟨-, hnone, rfl⟩
      exact Store.delete_put before (Store.append_singleton_ne_nil above name) hnone _

theorem keeps_of_calls {state : Store × Progress} (h : Calls before directory path content state) :
    Keeps before directory path content state := by
  induction h with
  | refl => exact rfl
  | tail _ hcall ih => exact keeps_of_call ih hcall

/-- Until the file is renamed, everything that was there is there. -/
theorem entryAt_of_calls {store : Store} {progress : Progress} {location : Location} {entry : Entry}
    (h : Calls before directory path content (store, progress)) (hp : progress ≠ .ended (.ok ()))
    (he : before.entryAt location = some entry) : store.entryAt location = some entry := by
  have hkeeps := keeps_of_calls h
  -- The unused name is not that of the entry.
  have hput : ∀ {above : Location} {name : String} (file : Entry),
      before.entryAt (above ++ [name]) = none →
      (before.put (above ++ [name]) file).entryAt location = some entry := by
    intro above name file hnone
    have hne : location ≠ above ++ [name] := fun hl => by
      rw [hl, hnone] at he
      cases he
    rw [Store.entryAt_put_of_ne before file hne, he]
  cases progress with
  | begun => exact hkeeps ▸ he
  | filling above name left =>
      rcases hkeeps with ⟨-, hnone, written, -, rfl⟩
      exact hput _ hnone
  | filled above name =>
      rcases hkeeps with ⟨-, hnone, rfl⟩
      exact hput _ hnone
  | ended result =>
      cases result with
      | error error => exact hkeeps ▸ he
      | ok _ => exact absurd rfl hp

/-! ### How the calls end -/

/-- If all calls have succeeded, the file is where the path named it, and nothing else was
    changed. -/
theorem names_of_calls (h : Calls before directory path content (after, .ended (.ok ()))) :
    ∃ above d name, before.temporaryDirectory directory = .ok above
      ∧ Store.Names before path d name
      ∧ after = before.put (d ++ [name]) (.file { content := content }) :=
  keeps_of_calls h

/-- If one has failed, everything is as it was. -/
theorem eq_of_calls {error : SystemError}
    (h : Calls before directory path content (after, .ended (.error error))) : after = before :=
  keeps_of_calls h

/-- Replacing a file is a sequence of the calls. -/
theorem calls_replaceFile (store : Store) (directory path : Path) (content : ByteArray) :
    Calls store directory path content ((store.replaceFile directory path content).2,
      .ended (store.replaceFile directory path content).1) := by
  unfold Store.replaceFile
  cases hd : store.temporaryDirectory directory with
  | error error => exact .single (.notCreated error)
  | ok above =>
      have hnew := Store.append_singleton_ne_nil above store.unusedName
      have hfilled : Calls store directory path content
          (store.put (above ++ [store.unusedName]) (.file { content := content }),
            .filled above store.unusedName) := by
        -- All bytes are written at once.
        have hwrite : Call directory path content
            (store.put (above ++ [store.unusedName]) (.file { content := ByteArray.empty }),
              .filling above store.unusedName (content ++ ByteArray.empty))
            ((store.put (above ++ [store.unusedName]) (.file { content := ByteArray.empty })).put
              (above ++ [store.unusedName]) (.file { content := ByteArray.empty ++ content }),
              .filling above store.unusedName ByteArray.empty) :=
          .write (Store.entryAt_put_self store hnew _)
        rw [ByteArray.append_empty, ByteArray.empty_append, Store.put_put] at hwrite
        exact ((Relation.ReflTransGen.single
          (.create hd (Store.entryAt_unusedName store above))).tail hwrite).tail .sync
      have hthere := Store.entryAt_put_self store hnew (.file { content := content })
      dsimp only
      split
      · next error hr => exact hfilled.tail (.notRenamed error)
      · next location hr => exact hfilled.tail (.rename hthere hr)

end Replacing

end DnsZones
