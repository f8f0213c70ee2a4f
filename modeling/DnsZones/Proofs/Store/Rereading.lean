import DnsZones.Proofs.Store.Files

/-!
# Reading What Was Written

What is read under a path after a file has been put in the store.

A file that is replaced under a path is found under the same path afterwards. In a
directory without links that is a matter of its location alone, but a path may go
through links, and the file may even take the place of one: renaming does not
follow a link at the end of the path. If the way to the directory went along that
link, the new file would be out of reach. It cannot have done so if the path could
be read before, or led to nothing: the link would be one to a directory, and
reading would have come to that directory.

An empty file that is made where nothing was changes little for whoever reads. They
read what they read before, unless they come to the new file itself or try to go
below it.

## Main definitions

* `Store.NamesIn`: A path to a name in a directory.

## Theorems

* `Store.walk_ok_or_tooManyLinks`: A walk depends on the number of links only in that they may run
  out.
* `Store.NamesIn.put_file`: A file may take the place of what could be read.
* `Store.status_of_replaceFile`: A file that was replaced is where the path leads.
* `Store.readText_of_replaceFile`: It is read.
* `Store.readText_put_new`: What a new file changes for reading.
-/

namespace DnsZones

namespace Store

variable {store after : Store} {follow : Bool} {here d above location : Location}
  {xs ys : List String} {name : String} {directory path : Path} {content : ByteArray}

/-! ### Links on the way -/

/-- A walk that leads somewhere leads there with any number of links, unless they run out. -/
theorem walk_ok_or_tooManyLinks {links : Nat} {place : Place}
    (h : store.walk follow links here xs = .ok place) (left : Nat) :
    store.walk follow left here xs = .ok place
      ∨ store.walk follow left here xs = .error .tooManyLinks := by
  induction h using walk_induction generalizing left with
  | arrived _ hd => exact Or.inl (walk_of_arrived hd)
  | redirected _ hd _ ih =>
      cases left with
      | zero => exact Or.inr (by rw [walk, hd])
      | succ left =>
          rw [walk_of_redirected hd]
          exact ih left

/-- The first part of a walk to a directory leads to a directory, whatever is left to go. -/
theorem exists_walk_first {links : Nat} (hs : store.IsSolid here)
    (h : store.walk true links here (xs ++ ys) = .ok (.found d .directory)) :
    ∃ e, store.walk true links here xs = .ok (.found e .directory) := by
  by_cases hys : ∃ y ∈ ys, Path.isStep y = true
  · rcases exists_walk_of_append hs hys h with ⟨e, -, he⟩
    exact ⟨e, he⟩
  · -- What is left to go says nothing.
    have hnone : Path.steps ys = [] :=
      List.filter_eq_nil_iff.mpr fun y hy hstep => hys ⟨y, hy, hstep⟩
    refine ⟨d, walk_of_steps_eq ?_ h⟩
    rw [Path.steps_append, hnone, List.append_nil]

/-! ### Replaced files -/

/-- What is read under a path is decided by what the walk along it comes to. -/
theorem readText_eq (hc : checkPath path = .ok ()) :
    store.readText path
      = match store.walkPath true path with
        | .error error => .error error
        | .ok (.vacant _ _) => .error .notFound
        | .ok (.found _ .directory) => .error .isDirectory
        | .ok (.found _ (.link _)) => .error .tooManyLinks
        | .ok (.found _ (.file file)) =>
          match String.fromUTF8? file.content with
          | some text => .ok text
          | none => .error .invalidText := by
  rw [readText, Store.file, status, resolve, hc]
  cases hw : store.walkPath true path with
  | error error => rfl
  | ok place =>
      cases place with
      | vacant l slash => rfl
      | found l entry =>
          cases entry with
          | directory => rfl
          | file file => rfl
          | link target => rfl

/-- A path that can be read, or leads to nothing, leads to no directory and needs no more links
    than there may be. -/
theorem walkPath_of_readText (hc : checkPath path = .ok ())
    (h : store.readText path = .error .notFound ∨ ∃ text, store.readText path = .ok text) :
    (∀ e, store.walkPath true path ≠ .ok (.found e .directory))
      ∧ store.walkPath true path ≠ .error .tooManyLinks := by
  rw [readText_eq hc] at h
  constructor
  · intro e he
    rw [he] at h
    rcases h with h | ⟨text, h⟩
    · cases h
    · cases h
  · intro he
    rw [he] at h
    rcases h with h | ⟨text, h⟩
    · cases h
    · cases h

/-- A path whose last segment is the name of an entry, and the directory to which the others
    lead. -/
structure NamesIn (store : Store) (path : Path) (xs : List String) (d : Location)
    (name : String) : Prop where
  /-- The text of the path is one. -/
  checked : checkPath path = .ok ()
  /-- The name comes last. -/
  segments : path.segments = xs ++ [name]
  /-- It is the name of an entry. -/
  entryName : Path.IsEntryName name
  /-- The name is not too long. -/
  short : ¬maxNameLength < name.utf8ByteSize
  /-- The segments before it lead to the directory. -/
  directory : store.walk true maxLinks (startOf store.workingDirectory path) xs
    = .ok (.found d .directory)

namespace NamesIn

theorem of_extends (hx : Extends store after) (h : NamesIn store path xs d name) :
    NamesIn after path xs d name :=
  ⟨h.checked, h.segments, h.entryName, h.short, by
    rw [hx.workingDirectory]
    exact walk_of_extends hx h.directory⟩

/-- A walk along the path comes to the directory, and takes the last step from there. -/
theorem exists_walkPath_eq (h : NamesIn store path xs d name) (follow : Bool) :
    ∃ left, store.walkPath follow path = store.walk follow left d [name] := by
  rw [walkPath, h.segments]
  exact walk_append_of_found h.directory (List.cons_ne_nil name [])

/-- A step to the name comes to the entry with the name if that is no link. -/
theorem walkPath_eq (h : NamesIn store path xs d name) {entry : Entry}
    (he : store.entryAt (d ++ [name]) = some entry) (hl : ∀ target, entry ≠ .link target) :
    store.walkPath follow path = .ok (.found (d ++ [name]) entry) := by
  have hno : ∀ target, store.entryAt (d ++ [name]) ≠ some (.link target) := by
    intro target hlink
    exact hl target (Option.some.inj (he.symm.trans hlink))
  rcases h.exists_walkPath_eq follow with ⟨left, hleft⟩
  rw [hleft, walk_single (fun _ => hno) h.entryName, lookIn, if_neg h.short, he]

theorem status_eq (h : NamesIn store path xs d name) {entry : Entry}
    (he : store.entryAt (d ++ [name]) = some entry) (hl : ∀ target, entry ≠ .link target) :
    store.status path = .ok (d ++ [name], entry) := by
  have hwalk : store.walkPath true path = .ok (.found (d ++ [name]) entry) := h.walkPath_eq he hl
  simp only [status, resolve, h.checked, hwalk]

/-- Where the path denotes a link, the walk goes on along the link or has come to its end. -/
theorem walkPath_of_link (h : NamesIn store path xs d name) {target : Path}
    (he : store.entryAt (d ++ [name]) = some (.link target)) :
    store.walkPath true path = .error .tooManyLinks
      ∨ ∃ left, store.walkPath true path
        = store.walk true left (startOf d target) target.segments := by
  have hstop : store.descend true d [name]
      = .redirected (startOf d target) (target.segments ++ []) :=
    descend_true_of_link ⟨h.entryName.step, h.entryName.ne_parent, h.short⟩ he
  rw [List.append_nil] at hstop
  rcases h.exists_walkPath_eq true with ⟨links, hlinks⟩
  rw [hlinks]
  cases links with
  | zero => exact Or.inl (by rw [walk, hstop])
  | succ left => exact Or.inr ⟨left, walk_of_redirected hstop⟩

/-- A file may come under the name if the path can be read or leads to nothing: then the way to the
    directory does not go along a link that the file replaces. -/
theorem put_file (h : NamesIn store path xs d name) (hs : store.IsSolid d)
    (hread : store.readText path = .error .notFound ∨ ∃ text, store.readText path = .ok text)
    (file : File) : NamesIn (store.put (d ++ [name]) (.file file)) path xs d name := by
  refine ⟨h.checked, h.segments, h.entryName, h.short, ?_⟩
  rcases walkPath_of_readText h.checked hread with ⟨hnot, hfew⟩
  have hother : ∀ {l : Location} {entry : Entry}, store.entryAt l = some entry →
      (store.put (d ++ [name]) (.file file)).entryAt l ≠ some entry → l = d ++ [name] := by
    intro l entry he hlost
    by_contra hne
    exact hlost ((entryAt_put_of_ne store _ hne).trans he)
  have hkeep : ∀ l, store.entryAt l = some .directory →
      (store.put (d ++ [name]) (.file file)).entryAt l = some .directory := by
    intro l he
    by_contra hlost
    -- Reading would have come to a directory.
    rw [hother he hlost] at he
    exact hnot _ (h.walkPath_eq he fun _ hl => by cases hl)
  rcases walk_of_directories hkeep h.directory with
    hsame | ⟨above, lost, target, rest, k, hlink, hlost, hgone⟩
  · exact hsame
  · -- The lost link is the one under the name, and it is one to a directory.
    have hwhere := hother hlink hlost
    rw [hwhere] at hlink
    rcases List.append_inj' hwhere rfl with ⟨rfl, -⟩
    rcases exists_walk_first (hs.startOf target) hgone with ⟨e, he⟩
    rcases h.walkPath_of_link hlink with hend | ⟨left, hleft⟩
    · exact absurd hend hfew
    · rw [hleft] at hnot hfew
      rcases walk_ok_or_tooManyLinks he left with hfound | hend
      · exact absurd hfound (hnot e)
      · exact absurd hend hfew

end NamesIn

/-- What is named by a path that ends in a name is named in the directory to which the rest of the
    path leads. -/
theorem exists_namesIn_of_named {place : Place}
    (hs : store.IsSolid (startOf store.workingDirectory path)) (hname : path.endsInName = true)
    (hslash : path.endsInSlash = false) (h : store.named path = .ok place) :
    ∃ xs d name, NamesIn store path xs d name ∧ store.IsSolid d
      ∧ store.named path = store.lookIn d name := by
  rcases Path.exists_segments_of_endsInName hname hslash with ⟨xs, name, hxs, hn⟩
  cases hc : checkPath path with
  | error error =>
      rw [named, hc] at h
      cases h
  | ok _ =>
      have hnamed : store.named path
          = store.walk false maxLinks (startOf store.workingDirectory path) (xs ++ [name]) := by
        simp only [named, hc, if_pos hname, Path.withoutFinalSlashes_of_not_endsInSlash hslash,
          walkPath, hxs]
      -- The walk leads to the place, so it leads to the directory first and then one step further.
      rcases exists_walk_of_append hs ⟨name, List.mem_singleton.mpr rfl, hn.step⟩
        (hnamed.symm.trans h) with ⟨d, hd, hw⟩
      have hgo : ∃ left, store.walk false maxLinks (startOf store.workingDirectory path)
          (xs ++ [name]) = store.walk false left d [name] :=
        walk_append_of_found hw (List.cons_ne_nil name [])
      rcases hgo with ⟨left, hleft⟩
      rw [walk_single (fun hf => absurd hf Bool.false_ne_true) hn] at hleft
      have hlook := hnamed.trans hleft
      have hshort := (lookIn_ok (hlook.symm.trans h)).1
      exact ⟨xs, d, name, ⟨hc, hxs, hn, hshort, hw⟩, hd, hlook⟩

/-- A file is renamed to the last name of a path, in the directory to which the rest leads, and not
    over a directory. -/
theorem exists_namesIn_of_renameTarget
    (hs : store.IsSolid (startOf store.workingDirectory path))
    (h : store.renameTarget above path = .ok location) :
    ∃ xs d name, NamesIn store path xs d name ∧ store.IsSolid d ∧ location = d ++ [name]
      ∧ store.entryAt location ≠ some .directory := by
  rcases renameTarget_ok h with ⟨hname, hslash, hplace⟩
  have hplace : ∃ place, store.named path = .ok place := by
    rcases hplace with ⟨_, hp⟩ | ⟨_, -, hp⟩
    · exact ⟨_, hp⟩
    · exact ⟨_, hp⟩
  rcases hplace with ⟨place, hplace⟩
  rcases exists_namesIn_of_named hs hname hslash hplace with ⟨xs, d, name, hnames, hd, hlook⟩
  rcases of_renameTarget_lookIn h hlook with ⟨rfl, -, hdirectory⟩
  exact ⟨xs, d, name, hnames, hd, rfl, hdirectory⟩

/-- A file that was replaced is where the path leads, if the path could be read before or led to
    nothing. If a file was there, the path led to it before, and no directory was there. -/
theorem status_of_replaceFile (hr : store.replaceFile directory path content = (.ok (), after)) :
    ∃ location, after = store.put location (.file { content := content })
      ∧ (store.IsSolid (startOf store.workingDirectory path) →
        (store.readText path = .error .notFound ∨ ∃ old, store.readText path = .ok old) →
        (∀ file, store.entryAt location = some (.file file) →
          store.status path = .ok (location, .file file))
        ∧ store.entryAt location ≠ some .directory
        ∧ after.status path = .ok (location, .file { content := content })) := by
  rcases replaceFile_cases hr with ⟨_, hfailed, -⟩ | ⟨above, location, -, -, hq, rfl⟩
  · cases hfailed
  · refine ⟨location, rfl, fun hs hread => ?_⟩
    -- The temporary file is on no way to a directory.
    have hnone := entryAt_unusedName store above
    have hwritten : Extends store
        (store.put (above ++ [store.unusedName]) (.file { content := content })) :=
      Extends.put_new hnone _
    have hback : Extends (store.put (above ++ [store.unusedName]) (.file { content := content }))
        store :=
      Extends.of_put_file (append_singleton_ne_nil above _) _
    rcases exists_namesIn_of_renameTarget (hs.of_extends hwritten) hq with
      ⟨xs, d, name, hnames, hd, rfl, hdirectory⟩
    have hbefore := hnames.of_extends hback
    have hafter := hbefore.put_file (hd.of_extends hback) hread { content := content }
    have hthere := entryAt_put_self store (append_singleton_ne_nil d name)
      (.file { content := content })
    refine ⟨fun file hfile => ?_, fun hold => hdirectory (hwritten.directory _ hold), ?_⟩
    · exact hbefore.status_eq hfile fun _ hl => by cases hl
    · exact hafter.status_eq hthere fun _ hl => by cases hl

/-- A file that was replaced is read, if the path could be read before or led to nothing. -/
theorem readText_of_replaceFile {text : String}
    (hs : store.IsSolid (startOf store.workingDirectory path))
    (hread : store.readText path = .error .notFound ∨ ∃ old, store.readText path = .ok old)
    (hr : store.replaceFile directory path content = (.ok (), after))
    (ht : String.fromUTF8? content = some text) : after.readText path = .ok text := by
  rcases status_of_replaceFile hr with ⟨location, -, hstatus⟩
  simp only [readText, Store.file, (hstatus hs hread).2.2, ht]

/-! ### New files -/

/-- A walk down that goes another way because of a new file comes to the file, or to where it would
    have to be a directory. -/
theorem descend_put_file (h : store.entryAt location = none) (file : File) (follow : Bool)
    (here : Location) (xs : List String) :
    (store.put location (.file file)).descend follow here xs = store.descend follow here xs
      ∨ (store.put location (.file file)).descend follow here xs
        = .arrived (.found location (.file file))
      ∨ (store.put location (.file file)).descend follow here xs = .failed .notDirectory := by
  have hne : location ≠ [] := by
    rintro rfl
    cases h
  induction xs generalizing here with
  | nil =>
      rw [descend, descend]
      by_cases he : here = location
      · rw [he, entryAt_put_self _ hne]
        exact Or.inr (Or.inl rfl)
      · rw [entryAt_put_of_ne _ _ he]
        exact Or.inl rfl
  | cons segment rest ih =>
      -- What was there already is still there.
      have hold : ∀ {entry : Entry}, store.entryAt (here ++ [segment]) = some entry →
          (store.put location (.file file)).entryAt (here ++ [segment]) = some entry := by
        intro entry he
        rw [entryAt_put_of_ne _ _ (fun hl => by rw [hl, h] at he; cases he), he]
      rcases segment_cases store here segment with
        ⟨next, hp⟩ | ⟨hs, hp, hl⟩ | ⟨hn, he | ⟨old, he⟩ | ⟨target, he⟩⟩
      · rw [descend_of_passes hp,
          descend_of_passes (hp.of_directories (Extends.put_new h (.file file)).directory)]
        exact ih next
      · rw [descend_of_tooLong hs hp hl, descend_of_tooLong hs hp hl]
        exact Or.inl rfl
      · by_cases hl : here ++ [segment] = location
        · rw [descend_of_file hn (by rw [hl]; exact entryAt_put_self _ hne _), hl]
          split
          · exact Or.inr (Or.inl rfl)
          · exact Or.inr (Or.inr rfl)
        · rw [descend_of_none hn he, descend_of_none hn ((entryAt_put_of_ne _ _ hl).trans he)]
          exact Or.inl rfl
      · rw [descend_of_file hn he, descend_of_file hn (hold he)]
        exact Or.inl rfl
      · rw [descend_of_link hn he, descend_of_link hn (hold he)]
        exact Or.inl rfl

theorem walk_put_file (h : store.entryAt location = none) (file : File) (follow : Bool)
    (links : Nat) (here : Location) (xs : List String) :
    (store.put location (.file file)).walk follow links here xs = store.walk follow links here xs
      ∨ (store.put location (.file file)).walk follow links here xs
        = .ok (.found location (.file file))
      ∨ (store.put location (.file file)).walk follow links here xs = .error .notDirectory := by
  induction links generalizing here xs with
  | zero =>
      rw [walk, walk]
      rcases descend_put_file h file follow here xs with hd | hd | hd
      · exact Or.inl (by rw [hd])
      · exact Or.inr (Or.inl (by rw [hd]))
      · exact Or.inr (Or.inr (by rw [hd]))
  | succ links ih =>
      rw [walk, walk]
      rcases descend_put_file h file follow here xs with hd | hd | hd
      · rw [hd]
        cases store.descend follow here xs with
        | arrived place => exact Or.inl rfl
        | redirected start zs => exact ih start zs
        | failed error => exact Or.inl rfl
      · exact Or.inr (Or.inl (by rw [hd]))
      · exact Or.inr (Or.inr (by rw [hd]))

/-- Whoever reads in a store with a new file reads what they read before, reads that file, or is
    told that something is no directory. -/
theorem readText_put_new {text : String} (h : store.entryAt location = none) (file : File)
    (ht : String.fromUTF8? file.content = some text) (path : Path) :
    (store.put location (.file file)).readText path = store.readText path
      ∨ (store.put location (.file file)).readText path = .ok text
      ∨ (store.put location (.file file)).readText path = .error .notDirectory := by
  cases hc : checkPath path with
  | error error => exact Or.inl (by simp only [readText, Store.file, status, resolve, hc])
  | ok _ =>
      have hwalk : (store.put location (.file file)).walkPath true path
            = store.walkPath true path
          ∨ (store.put location (.file file)).walkPath true path
            = .ok (.found location (.file file))
          ∨ (store.put location (.file file)).walkPath true path = .error .notDirectory :=
        walk_put_file h file true maxLinks _ _
      rw [readText_eq hc, readText_eq hc]
      rcases hwalk with hw | hw | hw
      · exact Or.inl (by rw [hw])
      · exact Or.inr (Or.inl (by simp only [hw, ht]))
      · exact Or.inr (Or.inr (by rw [hw]))

/-- Opening a lock file makes an empty file where nothing was, or changes nothing. -/
theorem openLock_cases (h : store.openLock path = .ok (location, after)) :
    after = store
      ∨ store.entryAt location = none
        ∧ after = store.put location (.file { content := ByteArray.empty }) := by
  unfold openLock at h
  split at h
  · cases h
    exact Or.inl rfl
  · cases h
  · cases h
  · next hplace =>
      cases h
      refine Or.inr ⟨?_, rfl⟩
      rw [resolve] at hplace
      split at hplace
      · cases hplace
      · exact (walk_put_of_vacant hplace).1
  · cases h

theorem extends_openLock (h : store.openLock path = .ok (location, after)) :
    Extends store after := by
  rcases openLock_cases h with rfl | ⟨hnone, rfl⟩
  · exact Extends.refl after
  · exact Extends.put_new hnone _

/-- Setting a lock keeps the directories and the links. -/
theorem extends_setLocked (store : Store) (location : Location) (held : Bool) :
    Extends store (store.setLocked location held) := by
  rw [setLocked]
  split
  · next file hfile => exact Extends.put (by simp [hfile]) (by simp [hfile]) _
  · exact Extends.refl store

end Store

end DnsZones
