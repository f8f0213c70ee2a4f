import DnsZones.Proofs.Path
import DnsZones.Proofs.Table
import DnsZones.Store

/-!
# Walks

Where walks through a file store lead, step by step.

A walk is taken apart step by step. A segment is passed if it says nothing, is the
way up, or names a directory, and then the walk goes on as if it had started
elsewhere. Otherwise it stops there: at a name that is too long, at nothing, at a
file, or at a link. A proof about walks splits into these cases, so each has its
own equation, and of a walk that comes to a directory or a link there are only two.

A walk that leads to a directory can be continued from there. The links on the way
do not get in between: where the first part of a longer way stops at a link, the
longer way stops at the same link and only has more to go after it.

## Main definitions

* `Store.IsName`: A name that can be looked up.
* `Store.Passes`: A segment that a walk passes.
* `Walk.outcome`: How a walk ends, seen from a directory.

## Theorems

* `Store.segment_cases`: What a segment does to a walk.
* `Store.passes_or_link`: The same for a walk that comes to a directory or a link.
* `Store.walk_induction`: Induction over a walk that leads somewhere.
* `Store.walk_append_of_found`: Continuing a walk that led to a directory.
-/

namespace DnsZones

/-- How a walk ends, as far as it matters for reaching a directory: in one, or in front of a
    link with these steps left. -/
def Walk.outcome : Walk → Option (Location ⊕ Location × List String)
  | .arrived (.found location .directory) => some (.inl location)
  | .redirected start segments => some (.inr (start, Path.steps segments))
  | _ => none

namespace Store

/-- A name that can be looked up in a directory. -/
structure IsName (name : String) : Prop where
  /-- The name says something about the way. -/
  step : Path.isStep name = true
  /-- The name is not the way up. -/
  ne_parent : name ≠ ".."
  /-- The name is not too long. -/
  short : ¬maxNameLength < name.utf8ByteSize

/-! ### Entries -/

section Entries

variable (store : Store) {location other : Location} {entry : Entry}

theorem entryAt_of_ne (h : location ≠ []) :
    store.entryAt location = store.entries.get? location := by
  rw [entryAt, if_neg (by rw [List.isEmpty_iff]; exact h)]

theorem append_singleton_ne_nil (directory : Location) (name : String) : directory ++ [name] ≠ [] :=
  List.append_ne_nil_of_right_ne_nil _ (List.cons_ne_nil _ _)

theorem entryAt_put_self (h : location ≠ []) (entry : Entry) :
    (store.put location entry).entryAt location = some entry := by
  rw [entryAt_of_ne _ h]
  exact Table.get?_insert_self _ _ _

/-- Putting an entry somewhere leaves all other locations as they were. -/
theorem entryAt_put_of_ne (entry : Entry) (h : other ≠ location) :
    (store.put location entry).entryAt other = store.entryAt other := by
  by_cases ho : other = []
  · subst ho
    rfl
  · rw [entryAt_of_ne _ ho, entryAt_of_ne _ ho]
    exact Table.get?_insert_of_ne _ _ h

theorem delete_put (hne : location ≠ []) (h : store.entryAt location = none) (entry : Entry) :
    (store.put location entry).delete location = store := by
  rw [entryAt_of_ne _ hne] at h
  simp only [put, delete, Table.erase_insert h]

end Entries

/-! ### Walks that end at once -/

section Ends

variable {store : Store} {follow : Bool} {here d start : Location} {zs : List String}

/-- A walk that ends at once is where it began. -/
theorem descend_nil_found (h : store.descend follow here [] = .arrived (.found d .directory)) :
    d = here := by
  rw [descend] at h
  cases he : store.entryAt here with
  | none =>
      rw [he] at h
      cases h
  | some entry =>
      rw [he] at h
      cases h
      rfl

theorem descend_nil_ne_redirected : store.descend follow here [] ≠ .redirected start zs := by
  rw [descend]
  split
  · exact nofun
  · exact nofun

end Ends

/-! ### Single steps -/

/-- A segment that a walk passes, and where the walk goes on. -/
inductive Passes (store : Store) (here : Location) : String → Location → Prop where
  /-- The segment says nothing. -/
  | stay {segment : String} (h : Path.isStep segment = false) : Passes store here segment here
  /-- The segment is the way up. -/
  | up : Passes store here ".." here.dropLast
  /-- The segment names a directory. -/
  | enter {segment : String} (h : IsName segment)
    (he : store.entryAt (here ++ [segment]) = some .directory) :
    Passes store here segment (here ++ [segment])

section Steps

variable {store : Store} {follow : Bool} {here next : Location} {segment : String}
  {rest : List String}

/-- A segment is passed, is too long, or is a name under which there is nothing, a file or a
    link. -/
theorem segment_cases (store : Store) (here : Location) (segment : String) :
    (∃ next, Passes store here segment next)
      ∨ (Path.isStep segment = true ∧ segment ≠ ".." ∧ maxNameLength < segment.utf8ByteSize)
      ∨ IsName segment ∧ (store.entryAt (here ++ [segment]) = none
        ∨ (∃ file, store.entryAt (here ++ [segment]) = some (.file file))
        ∨ ∃ target, store.entryAt (here ++ [segment]) = some (.link target)) := by
  cases hs : Path.isStep segment with
  | false => exact Or.inl ⟨here, .stay hs⟩
  | true =>
      by_cases hp : segment = ".."
      · subst hp
        exact Or.inl ⟨here.dropLast, .up⟩
      · by_cases hl : maxNameLength < segment.utf8ByteSize
        · exact Or.inr (Or.inl ⟨rfl, hp, hl⟩)
        · have hn : IsName segment := ⟨hs, hp, hl⟩
          cases he : store.entryAt (here ++ [segment]) with
          | none => exact Or.inr (Or.inr ⟨hn, Or.inl rfl⟩)
          | some entry =>
              cases entry with
              | directory => exact Or.inl ⟨here ++ [segment], .enter hn he⟩
              | file file => exact Or.inr (Or.inr ⟨hn, Or.inr (Or.inl ⟨file, rfl⟩)⟩)
              | link target => exact Or.inr (Or.inr ⟨hn, Or.inr (Or.inr ⟨target, rfl⟩)⟩)

theorem ne_of_isStep (h : Path.isStep segment = true) : ¬(segment = "" ∨ segment = ".") := by
  rw [← Path.isStep_eq_false_iff, h]
  exact nofun

/-- A walk goes on from where a segment that it passes leads. -/
theorem descend_of_passes (h : Passes store here segment next) :
    store.descend follow here (segment :: rest) = store.descend follow next rest := by
  cases h with
  | stay hs => rw [descend, if_pos (Path.isStep_eq_false_iff.mp hs)]
  | up => rw [descend, if_neg (by decide), if_pos rfl]
  | enter hn he =>
      rw [descend, if_neg (ne_of_isStep hn.step), if_neg hn.ne_parent, if_neg hn.short, he]

theorem descend_of_tooLong (h : Path.isStep segment = true) (hp : segment ≠ "..")
    (hl : maxNameLength < segment.utf8ByteSize) :
    store.descend follow here (segment :: rest) = .failed .nameTooLong := by
  rw [descend, if_neg (ne_of_isStep h), if_neg hp, if_pos hl]

theorem descend_of_none (h : IsName segment) (he : store.entryAt (here ++ [segment]) = none) :
    store.descend follow here (segment :: rest)
      = if rest.all (·.isEmpty) then .arrived (.vacant (here ++ [segment]) (!rest.isEmpty))
        else .failed .notFound := by
  rw [descend, if_neg (ne_of_isStep h.step), if_neg h.ne_parent, if_neg h.short, he]

theorem descend_of_file {file : File} (h : IsName segment)
    (he : store.entryAt (here ++ [segment]) = some (.file file)) :
    store.descend follow here (segment :: rest)
      = if rest.isEmpty then .arrived (.found (here ++ [segment]) (.file file))
        else .failed .notDirectory := by
  rw [descend, if_neg (ne_of_isStep h.step), if_neg h.ne_parent, if_neg h.short, he]

theorem descend_of_link {target : Path} (h : IsName segment)
    (he : store.entryAt (here ++ [segment]) = some (.link target)) :
    store.descend follow here (segment :: rest)
      = if rest.isEmpty && !follow then .arrived (.found (here ++ [segment]) (.link target))
        else .redirected (startOf here target) (target.segments ++ rest) := by
  rw [descend, if_neg (ne_of_isStep h.step), if_neg h.ne_parent, if_neg h.short, he]

/-- A walk that follows links at the end stops in front of every link. -/
theorem descend_true_of_link {target : Path} (h : IsName segment)
    (he : store.entryAt (here ++ [segment]) = some (.link target)) :
    store.descend true here (segment :: rest)
      = .redirected (startOf here target) (target.segments ++ rest) := by
  rw [descend_of_link h he, Bool.not_true, Bool.and_false, if_neg Bool.false_ne_true]

end Steps

/-! ### Walks to directories and links -/

section Outcomes

variable {store : Store} {follow : Bool} {here d start : Location} {segment : String}
  {xs rest : List String}

/-- What an outcome says about the walk. -/
theorem arrived_of_outcome {walk : Walk} (h : walk.outcome = some (.inl d)) :
    walk = .arrived (.found d .directory) := by
  cases walk with
  | arrived place =>
      cases place with
      | found location entry =>
          cases entry with
          | directory =>
              cases h
              rfl
          | file file => cases h
          | link target => cases h
      | vacant location slash => cases h
  | redirected start segments => cases h
  | failed error => cases h

/-- What an outcome says about the walk. -/
theorem redirected_of_outcome {walk : Walk} (h : walk.outcome = some (.inr (start, xs))) :
    ∃ zs, walk = .redirected start zs ∧ Path.steps zs = xs := by
  cases walk with
  | arrived place =>
      cases place with
      | found location entry =>
          cases entry with
          | directory => cases h
          | file file => cases h
          | link target => cases h
      | vacant location slash => cases h
  | redirected start segments =>
      cases h
      exact ⟨segments, rfl, rfl⟩
  | failed error => cases h

/-- A walk that comes to a directory or a link passes its first segment, or stops at a link
    there. -/
theorem passes_or_link (h : (store.descend follow here (segment :: rest)).outcome.isSome = true) :
    (∃ next, Passes store here segment next)
      ∨ ∃ target, IsName segment ∧ store.entryAt (here ++ [segment]) = some (.link target)
        ∧ (rest.isEmpty && !follow) = false := by
  rcases segment_cases store here segment with
    hpasses | ⟨hs, hp, hl⟩ | ⟨hn, he | ⟨file, he⟩ | ⟨target, he⟩⟩
  · exact Or.inl hpasses
  · -- At a name that is too long, at nothing, and at a file the walk has no outcome.
    rw [descend_of_tooLong hs hp hl] at h
    cases h
  · rw [descend_of_none hn he] at h
    split at h
    · cases h
    · cases h
  · rw [descend_of_file hn he] at h
    split at h
    · cases h
    · cases h
  · refine Or.inr ⟨target, hn, he, ?_⟩
    rw [descend_of_link hn he] at h
    split at h
    · cases h
    · next hfollow => exact Bool.eq_false_iff.mpr hfollow

end Outcomes

/-! ### Continuing a walk -/

section Append

variable {store : Store} {follow : Bool} {here d start : Location} {xs ys zs : List String}

/-- From the directory that a walk down led to, it goes on as a walk from there. -/
theorem descend_append_of_found
    (h : store.descend true here xs = .arrived (.found d .directory)) :
    store.descend follow here (xs ++ ys) = store.descend follow d ys := by
  induction xs generalizing here with
  | nil =>
      rw [descend_nil_found h]
      rfl
  | cons segment rest ih =>
      rw [List.cons_append]
      rcases passes_or_link (by rw [h]; rfl) with ⟨next, hp⟩ | ⟨target, hn, he, -⟩
      · rw [descend_of_passes hp] at h ⊢
        exact ih h
      · -- A walk that stopped at a link has not found a directory.
        rw [descend_true_of_link hn he] at h
        cases h

/-- A walk down that stops at a link does so whatever comes after, and takes it along. -/
theorem descend_append_of_redirected (h : store.descend true here xs = .redirected start zs)
    (hys : ys ≠ []) : store.descend follow here (xs ++ ys) = .redirected start (zs ++ ys) := by
  induction xs generalizing here with
  | nil => exact absurd h descend_nil_ne_redirected
  | cons segment rest ih =>
      rw [List.cons_append]
      rcases passes_or_link (by rw [h]; rfl) with ⟨next, hp⟩ | ⟨target, hn, he, -⟩
      · rw [descend_of_passes hp] at h ⊢
        exact ih h
      · -- More is to come, so the link is not at the end, where it might not be followed.
        have hmore : (rest ++ ys).isEmpty = false :=
          List.isEmpty_eq_false_iff.mpr (List.append_ne_nil_of_right_ne_nil _ hys)
        rw [descend_true_of_link hn he] at h
        cases h
        rw [descend_of_link hn he, hmore, Bool.false_and, if_neg Bool.false_ne_true,
          List.append_assoc]

theorem walk_of_arrived {links : Nat} {place : Place}
    (h : store.descend follow here xs = .arrived place) :
    store.walk follow links here xs = .ok place := by
  rw [walk, h]

theorem walk_of_redirected {links : Nat}
    (h : store.descend follow here xs = .redirected start zs) :
    store.walk follow (links + 1) here xs = store.walk follow links start zs := by
  rw [walk, h]

theorem walk_eq_of_descend_eq {links : Nat}
    (h : store.descend follow here xs = store.descend follow d ys) :
    store.walk follow links here xs = store.walk follow links d ys := by
  rw [walk.eq_def, walk.eq_def store follow links d]
  simp only [h]

/-- A walk that leads somewhere either goes straight down or along a link that it has left. -/
theorem walk_ok_cases {links : Nat} {place : Place}
    (h : store.walk follow links here xs = .ok place) :
    store.descend follow here xs = .arrived place
      ∨ ∃ left start zs, links = left + 1 ∧ store.descend follow here xs = .redirected start zs
        ∧ store.walk follow left start zs = .ok place := by
  rw [walk.eq_def] at h
  cases hd : store.descend follow here xs with
  | arrived found =>
      simp only [hd] at h
      cases h
      exact Or.inl rfl
  | failed error =>
      simp only [hd] at h
      cases h
  | redirected start zs =>
      simp only [hd] at h
      cases links with
      | zero => cases h
      | succ left => exact Or.inr ⟨left, start, zs, rfl, rfl, h⟩

/-- Induction over a walk that leads to a place: it goes straight down, or along a link and on
    from there with one link less. -/
@[elab_as_elim]
theorem walk_induction {place : Place}
    {motive : (links : Nat) → (here : Location) → (xs : List String) →
      store.walk follow links here xs = .ok place → Prop}
    (arrived : ∀ {links : Nat} {here : Location} {xs : List String}
      (h : store.walk follow links here xs = .ok place),
      store.descend follow here xs = .arrived place → motive links here xs h)
    (redirected : ∀ {links : Nat} {here start : Location} {xs zs : List String}
      (h : store.walk follow (links + 1) here xs = .ok place),
      store.descend follow here xs = .redirected start zs →
      ∀ hw : store.walk follow links start zs = .ok place,
        motive links start zs hw → motive (links + 1) here xs h)
    {links : Nat} {here : Location} {xs : List String}
    (h : store.walk follow links here xs = .ok place) : motive links here xs h := by
  induction links generalizing here xs with
  | zero =>
      rcases walk_ok_cases h with hd | ⟨left, _, _, hlinks, _, _⟩
      · exact arrived h hd
      · cases hlinks
  | succ links ih =>
      rcases walk_ok_cases h with hd | ⟨left, start, zs, hlinks, hd, hw⟩
      · exact arrived h hd
      · cases hlinks
        exact redirected h hd hw (ih hw)

/-- From the directory that a walk led to, it goes on as a walk from there, with fewer links
    left. -/
theorem walk_append_of_found {links : Nat}
    (h : store.walk true links here xs = .ok (.found d .directory)) (hys : ys ≠ []) :
    ∃ left, store.walk follow links here (xs ++ ys) = store.walk follow left d ys := by
  induction h using walk_induction with
  | arrived _ hd => exact ⟨_, walk_eq_of_descend_eq (descend_append_of_found hd)⟩
  | redirected _ hd _ ih =>
      rw [walk_of_redirected (descend_append_of_redirected hd hys)]
      exact ih

end Append

end Store

end DnsZones
