import DnsZones.Proofs.Store.Files

/-!
# Ways Along Links

Which links a way goes along, and what becomes of it when one of them is replaced.

A walk goes down until it stops in front of a link, goes on from there, and so on.
The links at which it stops are those that it goes along; a link at its very end
is one of them only if it is to be followed. All that it sees otherwise are the
directories that it passes, and the entry at which it ends.

So an entry that is no directory can be replaced without a walk noticing, as long
as it is no link that the walk goes along and not the entry at which it ends. If
the entry is where the walk ends, then it ends there still, at the new one. And if
the walk goes along it and a file comes in its place, then there is no way any more:
the file would have to be a directory.

None of this needs the directories of the store to be in order: a walk can start
anywhere, even where nothing is.

## Main definitions

* `Store.ComesTo`: A walk down comes to a name.
* `Store.StopsAt`: A walk down stops in front of a link.
* `Store.GoesAlong`, `Store.LeadsAlong`: A walk, or a path, goes along a link.
* `Store.SameBut`: Two stores that differ at one location only.

## Theorems

* `Store.GoesAlong.of_extends`: A way in a store is one in a store that has more.
* `Store.SameBut.directory_eq`: A directory is found as before.
* `Store.SameBut.walk_eq_lookIn`: A walk ends in the same directory as before.
* `Store.SameBut.walk_of_goesAlong`: A walk along what was replaced fails.
-/

namespace DnsZones

namespace Store

variable {store other larger : Store} {follow follow' : Bool}
  {here next above start d l location : Location} {xs zs rest : List String}
  {name segment : String} {directory : Path} {place : Place} {file : File}

theorem walk_of_failed {links : Nat} {error : SystemError}
    (h : store.descend follow here xs = .failed error) :
    store.walk follow links here xs = .error error := by
  rw [walk, h]

/-! ### Names on the way -/

/-- A walk down comes to a name, with these segments left to go after it. -/
inductive ComesTo (store : Store) : (here : Location) → (xs : List String) →
    (above : Location) → (name : String) → (rest : List String) → Prop where
  /-- The name comes next. -/
  | now {here : Location} {name : String} {rest : List String} (hn : IsName name) :
    ComesTo store here (name :: rest) here name rest
  /-- What comes next is passed. -/
  | pass {here next above : Location} {segment name : String} {xs rest : List String}
    (hp : Passes store here segment next) (h : ComesTo store next xs above name rest) :
    ComesTo store here (segment :: xs) above name rest

namespace ComesTo

/-- From the name on, the walk goes on as if it had started there. -/
theorem descend_eq (h : ComesTo store here xs above name rest) (follow : Bool) :
    store.descend follow here xs = store.descend follow above (name :: rest) := by
  induction h with
  | now hn => rfl
  | pass hp _ ih => rw [descend_of_passes hp, ih]

theorem isName (h : ComesTo store here xs above name rest) : IsName name := by
  induction h with
  | now hn => exact hn
  | pass _ _ ih => exact ih

/-- A walk comes to the same names in a store that keeps the directories. -/
theorem of_directories
    (hx : ∀ l, store.entryAt l = some .directory → larger.entryAt l = some .directory)
    (h : ComesTo store here xs above name rest) : ComesTo larger here xs above name rest := by
  induction h with
  | now hn => exact .now hn
  | pass hp _ ih => exact .pass (hp.of_directories hx) ih

/-- What is left to go is the end of the way. -/
theorem getLast?_eq (h : ComesTo store here xs above name rest) (hr : rest ≠ []) :
    xs.getLast? = rest.getLast? := by
  induction h with
  | @now here name rest hn => exact List.getLast?_append_of_ne_nil [name] hr
  | @pass here next above segment name xs rest hp hc ih =>
      have hxs : xs ≠ [] := by
        cases hc with
        | now hn => exact List.cons_ne_nil _ _
        | pass hp hc => exact List.cons_ne_nil _ _
      rw [← ih hr]
      exact List.getLast?_append_of_ne_nil [segment] hxs

end ComesTo

/-- A walk down to a place comes to its last segment, if that is a name and not followed. -/
theorem comesTo_of_arrived (hlast : xs.getLast? = some name) (hn : Path.IsEntryName name)
    (h : store.descend false here xs = .arrived place) :
    ∃ above, ComesTo store here xs above name [] := by
  induction xs generalizing here with
  | nil => cases hlast
  | cons segment rest ih =>
      by_cases hr : rest = []
      · subst hr
        have hname : segment = name := Option.some.inj hlast
        subst hname
        by_cases hlong : maxNameLength < segment.utf8ByteSize
        · rw [descend_of_tooLong hn.step hn.ne_parent hlong] at h
          cases h
        · exact ⟨here, .now ⟨hn.step, hn.ne_parent, hlong⟩⟩
      · have hlast' : rest.getLast? = some name := by
          rw [← hlast]
          exact (List.getLast?_append_of_ne_nil [segment] hr).symm
        have hmore : rest.isEmpty = false := List.isEmpty_eq_false_iff.mpr hr
        rcases segment_cases store here segment with
          ⟨next, hp⟩ | ⟨hs, hp, hl⟩ | ⟨hs, he | ⟨file, he⟩ | ⟨target, he⟩⟩
        · rw [descend_of_passes hp] at h
          rcases ih hlast' h with ⟨above, hc⟩
          exact ⟨above, .pass hp hc⟩
        · rw [descend_of_tooLong hs hp hl] at h
          cases h
        · -- Nothing can be below a free name, and there is the last segment to go.
          have hall : rest.all (·.isEmpty) = false := by
            refine List.all_eq_false.mpr ⟨name, List.mem_of_getLast? hlast', ?_⟩
            rw [String.isEmpty_iff]
            exact fun he => ne_of_isStep hn.step (Or.inl he)
          rw [descend_of_none hs he, hall] at h
          cases h
        · rw [descend_of_file hs he, hmore] at h
          cases h
        · rw [descend_of_link hs he, hmore] at h
          cases h

/-! ### Links on the way -/

/-- A walk down stops in front of the link at a location, to go on from elsewhere. -/
inductive StopsAt (store : Store) (follow : Bool) (here : Location) (xs : List String) :
    (l start : Location) → (zs : List String) → Prop where
  | link {above : Location} {name : String} {rest : List String} {target : Path}
    (hc : ComesTo store here xs above name rest)
    (he : store.entryAt (above ++ [name]) = some (.link target))
    (hf : follow = true ∨ rest ≠ []) :
    StopsAt store follow here xs (above ++ [name]) (startOf above target)
      (target.segments ++ rest)

/-- A walk goes along the link at a location: it stops in front of it, be it the first link on the
    way or a later one. -/
inductive GoesAlong (store : Store) (follow : Bool) (l : Location) :
    (here : Location) → (xs : List String) → Prop where
  | first {here start : Location} {xs zs : List String}
    (h : StopsAt store follow here xs l start zs) : GoesAlong store follow l here xs
  | later {here other start : Location} {xs zs : List String}
    (h : StopsAt store follow here xs other start zs)
    (hg : GoesAlong store follow l start zs) : GoesAlong store follow l here xs

/-- The way along a path goes along the link at a location. A link at the end of the path counts if
    it is to be followed. -/
def LeadsAlong (store : Store) (follow : Bool) (path : Path) (l : Location) : Prop :=
  GoesAlong store follow l (startOf store.workingDirectory path) path.segments

/-- A walk down that is sent elsewhere has stopped at a link. -/
theorem stopsAt_of_redirected (h : store.descend follow here xs = .redirected start zs) :
    ∃ l, StopsAt store follow here xs l start zs := by
  induction xs generalizing here with
  | nil => exact absurd h descend_nil_ne_redirected
  | cons segment rest ih =>
      rcases passes_or_link (by rw [h]; rfl) with ⟨next, hp⟩ | ⟨target, hn, he, hgo⟩
      · rw [descend_of_passes hp] at h
        rcases ih h with ⟨l, hs⟩
        cases hs with
        | link hc he hf => exact ⟨_, .link (.pass hp hc) he hf⟩
      · rw [descend_of_link hn he, hgo] at h
        cases h
        refine ⟨_, .link (.now hn) he ?_⟩
        cases follow with
        | true => exact Or.inl rfl
        | false =>
            rw [Bool.not_false, Bool.and_true] at hgo
            exact Or.inr (List.isEmpty_eq_false_iff.mp hgo)

namespace StopsAt

theorem exists_link (h : StopsAt store follow here xs l start zs) :
    ∃ target, store.entryAt l = some (.link target) := by
  cases h with
  | link _ he _ => exact ⟨_, he⟩

/-- The link stops every walk that follows as many links at the end. -/
theorem descend_eq (h : StopsAt store follow here xs l start zs)
    (hf : follow = true → follow' = true) :
    store.descend follow' here xs = .redirected start zs := by
  cases h with
  | @link above name rest target hc he hgo =>
      have hmore : (rest.isEmpty && !follow') = false := by
        rcases hgo with hfollow | hr
        · rw [hf hfollow, Bool.not_true, Bool.and_false]
        · rw [List.isEmpty_eq_false_iff.mpr hr, Bool.false_and]
      rw [hc.descend_eq, descend_of_link hc.isName he, hmore, if_neg Bool.false_ne_true]

/-- Where a file takes the place of the link, a walk that has more to go fails. -/
theorem descend_of_file (h : StopsAt store false here xs l start zs)
    (hx : ∀ l, store.entryAt l = some .directory → other.entryAt l = some .directory)
    (he : other.entryAt l = some (.file file)) (follow : Bool) :
    other.descend follow here xs = .failed .notDirectory := by
  cases h with
  | @link above name rest target hc _ hgo =>
      have hr : rest ≠ [] := hgo.resolve_left Bool.false_ne_true
      rw [(hc.of_directories hx).descend_eq, Store.descend_of_file hc.isName he,
        List.isEmpty_eq_false_iff.mpr hr, if_neg Bool.false_ne_true]

/-- A walk stops at the link in a store that keeps it, and the directories. -/
theorem of_directories
    (hx : ∀ l, store.entryAt l = some .directory → larger.entryAt l = some .directory)
    (hl : larger.entryAt l = store.entryAt l) (h : StopsAt store follow here xs l start zs) :
    StopsAt larger follow here xs l start zs := by
  cases h with
  | link hc he hf => exact .link (hc.of_directories hx) (hl.trans he) hf

/-- What is left to go after the link is the end of the way, if a link there is not followed. -/
theorem getLast?_eq (h : StopsAt store false here xs l start zs) : zs.getLast? = xs.getLast? := by
  cases h with
  | @link above name rest target hc _ hgo =>
      have hr : rest ≠ [] := hgo.resolve_left Bool.false_ne_true
      rw [hc.getLast?_eq hr, List.getLast?_append_of_ne_nil _ hr]

end StopsAt

namespace GoesAlong

theorem exists_link (h : GoesAlong store follow l here xs) :
    ∃ target, store.entryAt l = some (.link target) := by
  induction h with
  | first h => exact h.exists_link
  | later _ _ ih => exact ih

/-- No way goes along a file. -/
theorem not_put_file (hl : l ≠ []) (file : File) :
    ¬GoesAlong (store.put l (.file file)) follow l here xs := by
  intro h
  rcases h.exists_link with ⟨target, he⟩
  rw [entryAt_put_self store hl] at he
  cases he

/-- A way along a link is one in every store that keeps the directories and links. -/
theorem of_extends (hx : Extends store larger) (h : GoesAlong store follow l here xs) :
    GoesAlong larger follow l here xs := by
  have hstop : ∀ {other start : Location} {here : Location} {xs zs : List String},
      StopsAt store follow here xs other start zs →
      StopsAt larger follow here xs other start zs := by
    intro other start here xs zs hs
    rcases hs.exists_link with ⟨target, he⟩
    exact hs.of_directories hx.directory ((hx.link _ _ he).trans he.symm)
  induction h with
  | first h => exact .first (hstop h)
  | later h _ ih => exact .later (hstop h) ih

end GoesAlong

/-! ### One entry replaced -/

/-- Two stores that hold the same everywhere but at one location, where the first has no
    directory. -/
structure SameBut (l : Location) (store other : Store) : Prop where
  workingDirectory : other.workingDirectory = store.workingDirectory
  entryAt : ∀ location, location ≠ l → other.entryAt location = store.entryAt location
  notDirectory : store.entryAt l ≠ some .directory

namespace SameBut

theorem put (hd : store.entryAt l ≠ some .directory) (entry : Entry) :
    SameBut l store (store.put l entry) :=
  ⟨rfl, fun _ hne => entryAt_put_of_ne store entry hne, hd⟩

/-- Before a file was put somewhere, there was the same everywhere else. -/
theorem of_put_file (hl : l ≠ []) (file : File) : SameBut l (store.put l (.file file)) store := by
  refine ⟨rfl, fun _ hne => (entryAt_put_of_ne store _ hne).symm, ?_⟩
  rw [entryAt_put_self store hl]
  exact nofun

theorem keepsDirectory (h : SameBut l store other) (location : Location)
    (hd : store.entryAt location = some .directory) :
    other.entryAt location = some .directory := by
  rw [h.entryAt location fun he => h.notDirectory (he ▸ hd), hd]

/-- A walk that does not go along the location ends in both stores with the same stretch down. -/
theorem exists_last_stretch {links : Nat} (h : SameBut l store other)
    (hw : store.walk follow links here xs = .ok place)
    (hno : ¬GoesAlong store follow l here xs) :
    ∃ left start zs, store.descend follow start zs = .arrived place
      ∧ (follow = false → zs.getLast? = xs.getLast?)
      ∧ ∀ follow', (follow = true → follow' = true) →
        other.walk follow' links here xs = other.walk follow' left start zs := by
  induction hw using walk_induction with
  | @arrived links here xs _ hd => exact ⟨links, here, xs, hd, fun _ => rfl, fun _ _ => rfl⟩
  | redirected _ hd _ ih =>
      rcases stopsAt_of_redirected hd with ⟨stop, hs⟩
      -- The walk stops at another link, and both stores have that.
      have hne : stop ≠ l := fun he => hno (.first (he ▸ hs))
      have hs' := hs.of_directories h.keepsDirectory (h.entryAt stop hne)
      rcases ih (fun hg => hno (.later hs hg)) with ⟨left, start, zs, hd', hlast, hsame⟩
      refine ⟨left, start, zs, hd', fun hfollow => ?_, fun follow' hf => ?_⟩
      · subst hfollow
        exact (hlast rfl).trans hs.getLast?_eq
      · rw [walk_of_redirected (hs'.descend_eq hf), hsame follow' hf]

/-- A walk to a directory leads there, unless it goes along the location. -/
theorem walk_found {links : Nat} (h : SameBut l store other)
    (hw : store.walk true links here xs = .ok (.found d .directory))
    (hno : ¬GoesAlong store true l here xs) :
    other.walk true links here xs = .ok (.found d .directory) := by
  rcases h.exists_last_stretch hw hno with ⟨left, start, zs, hd, -, hsame⟩
  rcases descend_of_directories h.keepsDirectory (by rw [hd]; rfl) with
    he | ⟨_, _, _, _, -, -, hstop⟩
  · rw [hsame true id, walk_of_arrived (he.trans hd)]
  · cases hd.symm.trans hstop

/-- A directory is found, unless the path to it goes along the location. -/
theorem directory_eq (h : SameBut l store other) (hd : store.directory directory = .ok d)
    (hno : ¬store.LeadsAlong true directory l) : other.directory directory = .ok d := by
  by_cases htext : directory.text = ""
  · rw [Store.directory, if_pos (by rw [htext]; rfl)] at hd ⊢
    rw [h.workingDirectory, hd]
  · have hw := h.walk_found (walkPath_of_directory htext hd) hno
    have hempty : ¬directory.text.isEmpty = true := by
      rw [String.isEmpty_iff]
      exact htext
    rw [Store.directory, if_neg hempty, status, resolve] at hd ⊢
    cases hc : checkPath directory with
    | error error =>
        rw [hc] at hd
        cases hd
    | ok _ => simp only [walkPath, h.workingDirectory, hw]

/-- A walk ends with a look at its last segment, in the same directory in both stores, unless it
    goes along the location. -/
theorem walk_eq_lookIn {links : Nat} (h : SameBut l store other)
    (hn : Path.IsEntryName name) (hlast : xs.getLast? = some name)
    (hw : store.walk false links here xs = .ok place)
    (hno : ¬GoesAlong store false l here xs) :
    ∃ above, store.lookIn above name = .ok place
      ∧ ∀ follow,
        (follow = true → ∀ target, other.entryAt (above ++ [name]) ≠ some (.link target)) →
        other.walk follow links here xs = other.lookIn above name := by
  rcases h.exists_last_stretch hw hno with ⟨left, start, zs, hd, hzs, hsame⟩
  rcases comesTo_of_arrived ((hzs rfl).trans hlast) hn hd with ⟨above, hc⟩
  have hlook : store.walk false links above [name] = .ok place :=
    (walk_eq_of_descend_eq (hc.descend_eq false)).symm.trans (walk_of_arrived hd)
  rw [walk_single (fun hf => absurd hf Bool.false_ne_true) hn] at hlook
  refine ⟨above, hlook, fun follow hl => ?_⟩
  rw [hsame follow (fun hf => absurd hf Bool.false_ne_true),
    walk_eq_of_descend_eq ((hc.of_directories h.keepsDirectory).descend_eq follow),
    walk_single hl hn]

/-- A walk that goes along the location fails where a file has come there, as it has more to go. -/
theorem walk_of_goesAlong {links : Nat} (h : SameBut l store other)
    (he : other.entryAt l = some (.file file))
    (hw : store.walk false links here xs = .ok place)
    (hg : GoesAlong store false l here xs) (follow : Bool) :
    other.walk follow links here xs = .error .notDirectory := by
  induction hg generalizing links with
  | first hs => exact walk_of_failed (hs.descend_of_file h.keepsDirectory he follow)
  | @later here stop start xs zs hs _ ih =>
      by_cases hstop : stop = l
      · subst hstop
        exact walk_of_failed (hs.descend_of_file h.keepsDirectory he follow)
      · -- The walk passes this link first, in both stores.
        rcases walk_ok_cases hw with hd | ⟨left, start', zs', rfl, hd, hleft⟩
        · cases hd.symm.trans (hs.descend_eq id)
        · cases hd.symm.trans (hs.descend_eq id)
          have hs' := hs.of_directories h.keepsDirectory (h.entryAt stop hstop)
          rw [walk_of_redirected (hs'.descend_eq fun hf => absurd hf Bool.false_ne_true)]
          exact ih hleft

end SameBut

end Store

end DnsZones
