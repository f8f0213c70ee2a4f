import DnsZones.Proofs.Store.Walk

/-!
# Walks Compared

When two walks to a directory lead to the same one.

Three changes make no difference. A store may get more entries, as long as what
is there stays: directories and links are all that a walk to a directory sees.
The segments of a path that say nothing may be left out or put in. And a walk may
be cut short: if it leads anywhere, its first part leads to a directory. The last
needs that the walk starts in a directory that exists, with all those above it,
since `..` and a path without steps lead there without looking.

Making a directory is the case for which all three are needed together. The path
is first walked to a free name, where links at the end are not followed, and then
walked again to what was made there.

## Main definitions

* `Store.Extends`: A store that keeps the directories and links of another.
* `Store.IsSolid`: A directory below nothing but directories.
* `Store.Fits`: What can come to a free place.

## Theorems

* `Store.walk_of_directories`: Walks in a store that has lost a link.
* `Store.walk_of_extends`: Walks in a store that has more entries.
* `Store.walk_of_steps_eq`: Walks along the same steps.
* `Store.exists_walk_of_append`: The first part of a walk that leads somewhere.
* `Store.walk_put_of_vacant`: A walk to what was just made.
-/

namespace DnsZones

namespace Store

variable {store larger : Store} {follow : Bool} {here d start : Location}
  {xs ys zs : List String}

/-! ### More entries -/

/-- A store that keeps the directories and links of another, and its working directory. -/
structure Extends (store larger : Store) : Prop where
  /-- The working directory is the same. -/
  workingDirectory : larger.workingDirectory = store.workingDirectory
  /-- Directories stay. -/
  directory : ∀ location, store.entryAt location = some .directory →
    larger.entryAt location = some .directory
  /-- Links stay. -/
  link : ∀ location target, store.entryAt location = some (.link target) →
    larger.entryAt location = some (.link target)

namespace Extends

theorem refl (store : Store) : Extends store store :=
  ⟨rfl, fun _ h => h, fun _ _ h => h⟩

theorem trans {largest : Store} (h : Extends store larger) (h' : Extends larger largest) :
    Extends store largest :=
  ⟨h'.workingDirectory.trans h.workingDirectory,
    fun location hd => h'.directory location (h.directory location hd),
    fun location target hl => h'.link location target (h.link location target hl)⟩

/-- Putting an entry where there is no directory and no link keeps those that there are. -/
theorem put {location : Location} (hd : store.entryAt location ≠ some .directory)
    (hl : ∀ target, store.entryAt location ≠ some (.link target)) (entry : Entry) :
    Extends store (store.put location entry) := by
  refine ⟨rfl, fun other h => ?_, fun other target h => ?_⟩
  · have hne : other ≠ location := fun he => hd (by rw [← he, h])
    rw [entryAt_put_of_ne _ _ hne, h]
  · have hne : other ≠ location := fun he => hl target (by rw [← he, h])
    rw [entryAt_put_of_ne _ _ hne, h]

theorem put_new {location : Location} (h : store.entryAt location = none) (entry : Entry) :
    Extends store (store.put location entry) :=
  put (by rw [h]; exact nofun) (by rw [h]; exact nofun) entry

/-- Directories and links that are left when a file has been put somewhere were there before. -/
theorem of_put_file {location : Location} (h : location ≠ []) (file : File) :
    Extends (store.put location (.file file)) store := by
  have hother : ∀ {other : Location} {entry : Entry},
      (store.put location (.file file)).entryAt other = some entry → entry ≠ .file file →
      store.entryAt other = some entry := by
    intro other entry ho hentry
    by_cases he : other = location
    · rw [he, entryAt_put_self _ h] at ho
      exact absurd (Option.some.inj ho).symm hentry
    · rwa [entryAt_put_of_ne _ _ he] at ho
  exact ⟨rfl, fun _ ho => hother ho nofun, fun _ _ ho => hother ho nofun⟩

end Extends

/-- A segment that is passed is passed in a store that keeps the directories. -/
theorem Passes.of_directories {segment : String} {next : Location}
    (hx : ∀ l, store.entryAt l = some .directory → larger.entryAt l = some .directory)
    (h : Passes store here segment next) : Passes larger here segment next := by
  cases h with
  | stay hs => exact .stay hs
  | up => exact .up
  | enter hn he => exact .enter hn (hx _ he)

/-- A walk down that reaches a directory or a link does so in a store that keeps the directories,
    unless it stops at a link that is no longer there. -/
theorem descend_of_directories
    (hx : ∀ l, store.entryAt l = some .directory → larger.entryAt l = some .directory)
    (h : (store.descend follow here xs).outcome.isSome = true) :
    larger.descend follow here xs = store.descend follow here xs
      ∨ ∃ above name target rest, store.entryAt (above ++ [name]) = some (.link target)
        ∧ larger.entryAt (above ++ [name]) ≠ some (.link target)
        ∧ store.descend follow here xs
          = .redirected (startOf above target) (target.segments ++ rest) := by
  induction xs generalizing here with
  | nil =>
      -- The walk ends here, and must have found a directory.
      left
      rw [descend, descend]
      rw [descend] at h
      cases he : store.entryAt here with
      | none =>
          rw [he] at h
          cases h
      | some entry =>
          rw [he] at h
          cases entry with
          | directory => rw [hx here he]
          | file file => cases h
          | link target => cases h
  | cons segment rest ih =>
      rcases passes_or_link h with ⟨next, hp⟩ | ⟨target, hn, he, hgo⟩
      · rw [descend_of_passes hp] at h ⊢
        rw [descend_of_passes (hp.of_directories hx)]
        exact ih h
      · by_cases hlink : larger.entryAt (here ++ [segment]) = some (.link target)
        · exact Or.inl (by rw [descend_of_link hn he, descend_of_link hn hlink])
        · refine Or.inr ⟨here, segment, target, rest, he, hlink, ?_⟩
          rw [descend_of_link hn he, hgo, if_neg Bool.false_ne_true]

/-- A walk to a directory leads there in a store that keeps the directories, unless it went along a
    link that is no longer there. -/
theorem walk_of_directories {links : Nat}
    (hx : ∀ l, store.entryAt l = some .directory → larger.entryAt l = some .directory)
    (h : store.walk follow links here xs = .ok (.found d .directory)) :
    larger.walk follow links here xs = .ok (.found d .directory)
      ∨ ∃ above name target rest left, store.entryAt (above ++ [name]) = some (.link target)
        ∧ larger.entryAt (above ++ [name]) ≠ some (.link target)
        ∧ store.walk follow left (startOf above target) (target.segments ++ rest)
          = .ok (.found d .directory) := by
  induction h using walk_induction with
  | arrived _ hd =>
      rcases descend_of_directories hx (by rw [hd]; rfl) with he | ⟨_, _, _, _, -, -, hstop⟩
      · exact Or.inl (walk_of_arrived (he.trans hd))
      · cases hd.symm.trans hstop
  | redirected _ hd hw ih =>
      rcases descend_of_directories hx (by rw [hd]; rfl) with
        he | ⟨above, name, target, rest, hlink, hlost, hstop⟩
      · rw [walk_of_redirected (he.trans hd)]
        exact ih
      · cases hd.symm.trans hstop
        exact Or.inr ⟨above, name, target, rest, _, hlink, hlost, hw⟩

/-- A walk down that reaches a directory or a link does so in a store that keeps them. -/
theorem descend_of_extends (hx : Extends store larger)
    (h : (store.descend follow here xs).outcome.isSome = true) :
    larger.descend follow here xs = store.descend follow here xs := by
  rcases descend_of_directories hx.directory h with he | ⟨_, _, target, _, hlink, hlost, -⟩
  · exact he
  · exact absurd (hx.link _ target hlink) hlost

/-- A walk to a directory leads there in a store that keeps directories and links. -/
theorem walk_of_extends (hx : Extends store larger) {links : Nat}
    (h : store.walk follow links here xs = .ok (.found d .directory)) :
    larger.walk follow links here xs = .ok (.found d .directory) := by
  rcases walk_of_directories hx.directory h with hw | ⟨_, _, target, _, _, hlink, hlost, -⟩
  · exact hw
  · exact absurd (hx.link _ target hlink) hlost

/-! ### The same steps -/

/-- A walk down along the steps alone has the same outcome. -/
theorem outcome_descend_steps (store : Store) (here : Location) (xs : List String) :
    (store.descend true here (Path.steps xs)).outcome = (store.descend true here xs).outcome := by
  induction xs generalizing here with
  | nil => rfl
  | cons segment rest ih =>
      cases hs : Path.isStep segment with
      | false =>
          rw [Path.steps, List.filter_cons_of_neg (by rw [hs]; exact Bool.false_ne_true),
            descend_of_passes (.stay hs)]
          exact ih here
      | true =>
          rw [Path.steps, List.filter_cons_of_pos hs]
          rcases segment_cases store here segment with
            ⟨next, hp⟩ | ⟨-, hp, hl⟩ | ⟨hn, he | ⟨file, he⟩ | ⟨target, he⟩⟩
          · rw [descend_of_passes hp, descend_of_passes hp]
            exact ih next
          · rw [descend_of_tooLong hs hp hl, descend_of_tooLong hs hp hl]
          · -- Whatever is left to go, a walk that stops at a free name has no outcome.
            have hnone : ∀ more : List String,
                (store.descend true here (segment :: more)).outcome = none := by
              intro more
              rw [descend_of_none hn he]
              split
              · rfl
              · rfl
            exact (hnone _).trans (hnone rest).symm
          · have hnone : ∀ more : List String,
                (store.descend true here (segment :: more)).outcome = none := by
              intro more
              rw [descend_of_file hn he]
              split
              · rfl
              · rfl
            exact (hnone _).trans (hnone rest).symm
          · simp only [descend_true_of_link hn he, Walk.outcome]
            rw [← Path.steps, Path.steps_append, Path.steps_append, Path.steps_steps]

theorem outcome_descend_congr (hsteps : Path.steps xs = Path.steps ys) :
    (store.descend true here ys).outcome = (store.descend true here xs).outcome := by
  rw [← outcome_descend_steps, ← hsteps, outcome_descend_steps]

/-- A walk to a directory leads there along every way with the same steps. -/
theorem walk_of_steps_eq {links : Nat} (hsteps : Path.steps xs = Path.steps ys)
    (h : store.walk true links here xs = .ok (.found d .directory)) :
    store.walk true links here ys = .ok (.found d .directory) := by
  induction h using walk_induction generalizing ys with
  | arrived _ hd =>
      refine walk_of_arrived (arrived_of_outcome ?_)
      rw [outcome_descend_congr hsteps, hd]
      rfl
  | redirected _ hd _ ih =>
      -- Both walks stop at the same link, and what they have left to go has the same steps.
      have hstop := (outcome_descend_congr hsteps).trans (congrArg Walk.outcome hd)
      rcases redirected_of_outcome hstop with ⟨ws, hd', hws⟩
      rw [walk_of_redirected hd']
      exact ih hws.symm

/-! ### The first part of a walk -/

/-- A directory below nothing but directories. -/
def IsSolid (store : Store) (location : Location) : Prop :=
  ∀ n, store.entryAt (location.take n) = some .directory

namespace IsSolid

theorem root (store : Store) : store.IsSolid [] := fun n => by
  rw [List.take_nil]
  rfl

theorem entryAt (h : store.IsSolid here) : store.entryAt here = some .directory := by
  have hwhole := h here.length
  rwa [List.take_length] at hwhole

theorem dropLast (h : store.IsSolid here) : store.IsSolid here.dropLast := fun n => by
  rw [List.dropLast_eq_take, List.take_take]
  exact h _

/-- A directory directly below such a directory is one. -/
theorem append {name : String} (h : store.IsSolid here)
    (he : store.entryAt (here ++ [name]) = some .directory) : store.IsSolid (here ++ [name]) := by
  intro n
  -- A part of the longer location is one of the shorter or the whole.
  by_cases hn : n ≤ here.length
  · rw [List.take_append_of_le_length hn]
    exact h n
  · rw [List.take_of_length_le (by rw [List.length_append, List.length_singleton]; omega)]
    exact he

theorem startOf (h : store.IsSolid here) (path : Path) : store.IsSolid (startOf here path) := by
  unfold Store.startOf
  split
  · exact root store
  · exact h

theorem of_extends (hx : Extends store larger) (h : store.IsSolid here) : larger.IsSolid here :=
  fun n => hx.directory _ (h n)

/-- A segment that is passed leads from such a directory to such a directory. -/
theorem of_passes {segment : String} {next : Location} (h : store.IsSolid here)
    (hp : Passes store here segment next) : store.IsSolid next := by
  cases hp with
  | stay hs => exact h
  | up => exact h.dropLast
  | enter hn he => exact h.append he

end IsSolid

/-- A walk down that does not fail has a first part that reaches a directory or a link. -/
theorem descend_first_part (hs : store.IsSolid here) (hys : ∃ y ∈ ys, Path.isStep y = true)
    (h : ∀ error, store.descend follow here (xs ++ ys) ≠ .failed error) :
    (∃ d, store.IsSolid d ∧ store.descend true here xs = .arrived (.found d .directory))
      ∨ ∃ start zs, store.IsSolid start ∧ store.descend true here xs = .redirected start zs := by
  rcases hys with ⟨y, hy, hstep⟩
  induction xs generalizing here with
  | nil =>
      refine Or.inl ⟨here, hs, ?_⟩
      rw [descend, hs.entryAt]
  | cons segment rest ih =>
      -- Something has to come after the first part, so it cannot end at a file or nowhere.
      have hmore : (rest ++ ys).isEmpty = false :=
        List.isEmpty_eq_false_iff.mpr (List.append_ne_nil_of_right_ne_nil _ (List.ne_nil_of_mem hy))
      have hall : (rest ++ ys).all (·.isEmpty) = false := by
        refine List.all_eq_false.mpr ⟨y, List.mem_append_right _ hy, ?_⟩
        rw [String.isEmpty_iff]
        exact fun he => ne_of_isStep hstep (Or.inl he)
      rw [List.cons_append] at h
      rcases segment_cases store here segment with
        ⟨next, hp⟩ | ⟨hskip, hp, hl⟩ | ⟨hn, he | ⟨file, he⟩ | ⟨target, he⟩⟩
      · rw [descend_of_passes hp] at h ⊢
        exact ih (hs.of_passes hp) h
      · exact absurd (descend_of_tooLong hskip hp hl) (h _)
      · rw [descend_of_none hn he, hall, if_neg Bool.false_ne_true] at h
        exact absurd rfl (h _)
      · rw [descend_of_file hn he, hmore, if_neg Bool.false_ne_true] at h
        exact absurd rfl (h _)
      · exact Or.inr ⟨_, _, hs.startOf target, descend_true_of_link hn he⟩

/-- The first part of a walk that leads anywhere leads to a directory. -/
theorem exists_walk_of_append {links : Nat} {place : Place} (hs : store.IsSolid here)
    (hys : ∃ y ∈ ys, Path.isStep y = true)
    (h : store.walk follow links here (xs ++ ys) = .ok place) :
    ∃ d, store.IsSolid d ∧ store.walk true links here xs = .ok (.found d .directory) := by
  have hne : ys ≠ [] := hys.elim fun _ hy => List.ne_nil_of_mem hy.1
  generalize hzs : xs ++ ys = zs at h
  induction h using walk_induction generalizing xs with
  | arrived _ hd =>
      subst hzs
      rcases descend_first_part hs hys (by rw [hd]; exact fun _ => nofun)
        with ⟨d, hd', hx⟩ | ⟨start, zs, -, hx⟩
      · exact ⟨d, hd', walk_of_arrived hx⟩
      · rw [descend_append_of_redirected hx hne] at hd
        cases hd
  | redirected _ hd _ ih =>
      subst hzs
      rcases descend_first_part hs hys (by rw [hd]; exact fun _ => nofun)
        with ⟨d, hd', hx⟩ | ⟨start, zs, hstart, hx⟩
      · exact ⟨d, hd', walk_of_arrived hx⟩
      · -- The link that stops the first part is the one that stopped the whole walk.
        rw [descend_append_of_redirected hx hne] at hd
        cases hd
        rw [walk_of_redirected hx]
        exact ih hstart rfl

/-! ### A free place -/

/-- After the last name of a walk, segments without a text lead nowhere else. -/
theorem descend_of_all_isEmpty (h : xs.all (·.isEmpty) = true) :
    store.descend follow here xs = store.descend follow here [] := by
  induction xs with
  | nil => rfl
  | cons x rest ih =>
      rw [List.all_cons, Bool.and_eq_true] at h
      have hx : Path.isStep x = false :=
        Path.isStep_eq_false_iff.mpr (Or.inl (String.isEmpty_iff.mp h.1))
      rw [descend_of_passes (.stay hx), ih h.2]

/-- What can come to a free place and is found there by those who look for it: a directory, or a
    file unless a slash follows. -/
def Fits (slash : Bool) (entry : Entry) : Prop :=
  entry = .directory ∨ slash = false ∧ ∃ file, entry = .file file

/-- A walk down that leads to a free place finds what is made there, in a store that keeps the
    rest. -/
theorem descend_of_vacant {l : Location} {slash : Bool}
    (h : store.descend follow here xs = .arrived (.vacant l slash)) :
    store.entryAt l = none ∧ l ≠ [] ∧ ∀ larger entry, Extends store larger → Fits slash entry →
      larger.entryAt l = some entry →
      larger.descend true here xs = .arrived (.found l entry) := by
  induction xs generalizing here with
  | nil =>
      rw [descend] at h
      split at h
      · cases h
      · cases h
  | cons segment rest ih =>
      rcases segment_cases store here segment with
        ⟨next, hp⟩ | ⟨hs, hp, hl⟩ | ⟨hn, he | ⟨file, he⟩ | ⟨target, he⟩⟩
      · rw [descend_of_passes hp] at h
        rcases ih h with ⟨hnone, hne, hfound⟩
        refine ⟨hnone, hne, fun larger entry hx hfits hmade => ?_⟩
        rw [descend_of_passes (hp.of_directories hx.directory)]
        exact hfound larger entry hx hfits hmade
      · rw [descend_of_tooLong hs hp hl] at h
        cases h
      · rw [descend_of_none hn he] at h
        split at h
        · -- The free name is the last, whatever slashes follow it.
          next hall =>
            cases h
            refine ⟨he, append_singleton_ne_nil here segment,
              fun larger entry _ hfits hmade => ?_⟩
            rcases hfits with rfl | ⟨hslash, file, rfl⟩
            · rw [descend_of_passes (.enter hn hmade), descend_of_all_isEmpty hall, descend, hmade]
            · rw [Bool.not_eq_false'] at hslash
              rw [descend_of_file hn hmade, if_pos hslash]
        · cases h
      · rw [descend_of_file hn he] at h
        split at h
        · cases h
        · cases h
      · rw [descend_of_link hn he] at h
        split at h
        · cases h
        · cases h

/-- A link that stops a walk stops it also if links at the end are followed. -/
theorem descend_true_of_redirected (h : store.descend follow here xs = .redirected start zs) :
    store.descend true here xs = .redirected start zs := by
  induction xs generalizing here with
  | nil => exact absurd h descend_nil_ne_redirected
  | cons segment rest ih =>
      rcases passes_or_link (by rw [h]; rfl) with ⟨next, hp⟩ | ⟨target, hn, he, hgo⟩
      · rw [descend_of_passes hp] at h ⊢
        exact ih h
      · rw [descend_of_link hn he, hgo, if_neg Bool.false_ne_true] at h
        rw [descend_true_of_link hn he]
        exact h

/-- A walk that leads to a free place finds what is made there. -/
theorem walk_put_of_vacant {links : Nat} {l : Location} {slash : Bool}
    (h : store.walk follow links here xs = .ok (.vacant l slash)) :
    store.entryAt l = none ∧ l ≠ [] ∧ ∀ entry, Fits slash entry →
      (store.put l entry).walk true links here xs = .ok (.found l entry) := by
  induction h using walk_induction with
  | arrived _ hd =>
      rcases descend_of_vacant hd with ⟨hnone, hne, hfound⟩
      exact ⟨hnone, hne, fun entry hfits => walk_of_arrived
        (hfound _ entry (Extends.put_new hnone _) hfits (entryAt_put_self _ hne _))⟩
  | redirected _ hd _ ih =>
      -- The link on the way is still there once the entry is made.
      rcases ih with ⟨hnone, hne, hfound⟩
      have hd' := descend_true_of_redirected hd
      refine ⟨hnone, hne, fun entry hfits => ?_⟩
      rw [← descend_of_extends (Extends.put_new hnone entry) (by rw [hd']; rfl)] at hd'
      rw [walk_of_redirected hd', hfound entry hfits]

/-! ### Links at the end -/

/-- A walk down that does not follow a link at the end either ends as the one that does, or
    at that link. -/
theorem descend_false_cases (h : (store.descend true here xs).outcome.isSome = true) :
    store.descend false here xs = store.descend true here xs
      ∨ ∃ l target, store.descend false here xs = .arrived (.found l (.link target)) := by
  induction xs generalizing here with
  | nil => exact Or.inl rfl
  | cons segment rest ih =>
      rcases passes_or_link h with ⟨next, hp⟩ | ⟨target, hn, he, -⟩
      · simp only [descend_of_passes hp] at h ⊢
        exact ih h
      · rw [descend_true_of_link hn he, descend_of_link hn he]
        -- It is the last segment or not, and only there does following matter.
        by_cases hr : rest.isEmpty = true
        · exact Or.inr ⟨_, _, by rw [hr, Bool.not_false, Bool.and_self, if_pos rfl]⟩
        · rw [Bool.not_eq_true] at hr
          exact Or.inl (by rw [hr, Bool.false_and, if_neg Bool.false_ne_true])

/-- A walk to a directory comes to an entry also if a link at the end is not followed. -/
theorem exists_walk_false {links : Nat}
    (h : store.walk true links here xs = .ok (.found d .directory)) :
    ∃ l entry, store.walk false links here xs = .ok (.found l entry) := by
  induction h using walk_induction with
  | arrived _ hd =>
      rcases descend_false_cases (by rw [hd]; rfl) with hf | ⟨l, target, hf⟩
      · exact ⟨_, _, walk_of_arrived (hf.trans hd)⟩
      · exact ⟨_, _, walk_of_arrived hf⟩
  | redirected _ hd _ ih =>
      rcases descend_false_cases (by rw [hd]; rfl) with hf | ⟨l, target, hf⟩
      · rcases ih with ⟨l, entry, hfound⟩
        exact ⟨l, entry, by rw [walk_of_redirected (hf.trans hd), hfound]⟩
      · exact ⟨_, _, walk_of_arrived hf⟩

end Store

end DnsZones
