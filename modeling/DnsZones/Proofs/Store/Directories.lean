import DnsZones.Proofs.Store.Reach
import DnsZones.Store.Access

/-!
# Making Directories

What making a directory establishes, and that a failure to make one is final.

When the directories on a way are made, each of them is tried twice: once before
those above it and, if they were missing, once after. The result is either a
directory, or an error that trying again does not change: a directory that could
not be made stays in the way of everything below it. The store does not grow any
further then either, although the first attempt may have left some directories
behind.

The second statement is not obvious, since the path that failed may have failed
differently before the directories above it were there. It rests on the paths of
a chain lying on one way: whatever leads to a path leads to the path above it.

## Main definitions

* `Store.Leads`: A walk along a path leads to a directory.
* `Store.Attempt`: One attempt at a directory.
* `Store.IsAbove`: A path on the way to another.

## Theorems

* `Store.makeDirectory_ok`: A directory that was made is there.
* `Store.makeChain_ok`: The same for a directory and those above it.
* `Store.makeChain_retry`: A failure is final.
* `Store.chain_isAbove`: The directories on the way to a path.
* `Store.makeDirectories_ok`: Directories that were made lead to the path.
* `Store.makeDirectories_retry`: A failure to make them is final.
-/

namespace DnsZones

namespace Store

variable {store larger made after : Store} {path upper lower : Path} {d : Location}

/-- A walk along a path leads to a directory. -/
def Leads (store : Store) (path : Path) : Prop :=
  ∃ d, store.walkPath true path = .ok (.found d .directory)

/-- A path denotes a directory if it can be walked along and leads to one. -/
theorem isDirectory_iff :
    store.isDirectory path = true ↔ checkPath path = .ok () ∧ store.Leads path := by
  unfold isDirectory status resolve Leads
  -- Of all places only a found directory counts.
  cases hc : checkPath path with
  | error error => simp only [reduceCtorEq, false_and, Bool.false_eq_true]
  | ok _ =>
      cases hw : store.walkPath true path with
      | error error => simp only [reduceCtorEq, exists_false, and_false, Bool.false_eq_true]
      | ok place =>
          cases place with
          | vacant l slash =>
              simp only [Except.ok.injEq, reduceCtorEq, exists_false, and_false, Bool.false_eq_true]
          | found l entry =>
              cases entry with
              | directory =>
                  simp only [Except.ok.injEq, Place.found.injEq, and_true, exists_eq', and_self]
              | file file =>
                  simp only [Except.ok.injEq, Place.found.injEq, reduceCtorEq, and_false,
                    exists_false, Bool.false_eq_true]
              | link target =>
                  simp only [Except.ok.injEq, Place.found.injEq, reduceCtorEq, and_false,
                    exists_false, Bool.false_eq_true]

theorem walkPath_of_extends (hx : Extends store larger)
    (h : store.walkPath true path = .ok (.found d .directory)) :
    larger.walkPath true path = .ok (.found d .directory) := by
  rw [walkPath, hx.workingDirectory]
  exact walk_of_extends hx h

/-- The path that a walk takes which does not follow a link at the end. -/
def namedPath (path : Path) : Path := if path.endsInName then path.withoutFinalSlashes else path

/-- That path has the same steps from the same start. -/
theorem steps_namedPath (path : Path) :
    Path.steps (namedPath path).segments = Path.steps path.segments
      ∧ (namedPath path).isAbsolute = path.isAbsolute := by
  unfold namedPath
  split
  · next h => exact ⟨Path.steps_withoutFinalSlashes path, Path.isAbsolute_withoutFinalSlashes h⟩
  · exact ⟨rfl, rfl⟩

/-- What a path names, once its text is checked. -/
theorem named_eq (h : checkPath path = .ok ()) :
    store.named path = store.walk false maxLinks (startOf store.workingDirectory path)
      (namedPath path).segments := by
  have hstart : startOf store.workingDirectory (namedPath path)
      = startOf store.workingDirectory path := by
    rw [startOf, startOf, (steps_namedPath path).2]
  rw [named, h, ← hstart]
  rfl

/-- Only at a free place can a directory be made, and the path leads to it afterwards. -/
theorem makeDirectory_put (h : store.makeDirectory path = .ok made) :
    ∃ l slash, store.named path = .ok (.vacant l slash) ∧ store.entryAt l = none
      ∧ made = store.put l .directory ∧ checkPath path = .ok ()
      ∧ made.walkPath true path = .ok (.found l .directory) := by
  rw [makeDirectory] at h
  cases hn : store.named path with
  | error error =>
      rw [hn] at h
      cases h
  | ok place =>
      rw [hn] at h
      cases place with
      | found l entry => cases h
      | vacant l slash =>
          cases h
          -- A path is named only after its text is checked.
          have hc : checkPath path = .ok () := by
            cases hc : checkPath path with
            | ok _ => rfl
            | error error =>
                rw [named, hc] at hn
                cases hn
          have hwalk := hn
          rw [named_eq hc] at hwalk
          rcases walk_put_of_vacant hwalk with ⟨hnone, -, hfound⟩
          exact ⟨l, slash, rfl, hnone, rfl, hc,
            walk_of_steps_eq (steps_namedPath path).1 (hfound _ (Or.inl rfl))⟩

/-- A directory that was made is there, and nothing else is changed. -/
theorem makeDirectory_ok (h : store.makeDirectory path = .ok made) :
    Extends store made ∧ made.isDirectory path = true
      ∧ ∃ place, store.named path = .ok place := by
  rcases makeDirectory_put h with ⟨l, slash, hn, hnone, rfl, hc, hfound⟩
  exact ⟨Extends.put_new hnone _, isDirectory_iff.mpr ⟨hc, l, hfound⟩, _, hn⟩

theorem makeDirectory_of_isDirectory (h : store.isDirectory path = true) :
    store.makeDirectory path = .error .alreadyThere := by
  rcases isDirectory_iff.mp h with ⟨hc, d, hd⟩
  rcases exists_walk_false (walk_of_steps_eq (steps_namedPath path).1.symm hd) with ⟨l, entry, hl⟩
  rw [makeDirectory, named_eq hc, hl]

/-- A path on whose way nothing is was at least checked. -/
theorem checkPath_of_notFound (htext : path.text ≠ "")
    (h : store.makeDirectory path = .error .notFound) : checkPath path = .ok () := by
  cases hc : checkPath path with
  | ok _ => rfl
  | error error =>
      rw [makeDirectory, named, hc] at h
      cases h
      rw [checkPath] at hc
      split at hc
      · cases hc
      · split at hc
        · next he => exact absurd (String.isEmpty_iff.mp he) htext
        · split at hc
          · cases hc
          · cases hc

/-! ### Chains -/

/-- One attempt at a directory that may be there already, and what comes of it. -/
inductive Attempt (store : Store) (path : Path) : Except SystemError Unit → Store → Prop where
  /-- The directory is made. -/
  | made {made : Store} (h : store.makeDirectory path = .ok made) : Attempt store path (.ok ()) made
  /-- The directory is there. -/
  | there {cause : SystemError} (h : store.makeDirectory path = .error cause)
    (hd : store.isDirectory path = true) : Attempt store path (.ok ()) store
  /-- The directory is not there and cannot be made. -/
  | failed {cause : SystemError} (h : store.makeDirectory path = .error cause)
    (hd : store.isDirectory path ≠ true) : Attempt store path (.error cause) store

namespace Attempt

theorem of_error {cause : SystemError} (h : store.makeDirectory path = .error cause) :
    Attempt store path (if store.isDirectory path then .ok () else .error cause) store := by
  split
  · next hd => exact .there h hd
  · next hd => exact .failed h hd

theorem extends_after {result : Except SystemError Unit} (h : Attempt store path result after) :
    Extends store after := by
  cases h with
  | made hm => exact (makeDirectory_ok hm).1
  | there hm hd => exact Extends.refl store
  | failed hm hd => exact Extends.refl store

/-- An attempt that succeeds leaves a directory. -/
theorem isDirectory (h : Attempt store path (.ok ()) after) : after.isDirectory path = true := by
  cases h with
  | made hm => exact (makeDirectory_ok hm).2.1
  | there hm hd => exact hd

end Attempt

/-- A chain of directories ends with the first attempt unless something on the way is missing. -/
theorem makeChain_of_error {above : List Path} {cause : SystemError}
    (hm : store.makeDirectory path = .error cause) (hc : cause ≠ .notFound) :
    store.makeChain (path :: above)
      = (if store.isDirectory path then .ok () else .error cause, store) := by
  rw [makeChain, hm]
  split
  · next heq => cases heq
  · next heq =>
      cases heq
      exact absurd rfl hc
  · next heq =>
      cases heq
      rfl

/-- What making a chain of directories does: one attempt at the first is enough, or something on
    the way to it is missing. Then those above it come first, and after them a second attempt. -/
theorem makeChain_cons_cases {above : List Path} {result : Except SystemError Unit}
    (h : store.makeChain (path :: above) = (result, after)) :
    Attempt store path result after
      ∨ store.makeDirectory path = .error .notFound
        ∧ ((∃ cause, store.makeChain above = (.error cause, after) ∧ result = .error cause)
          ∨ ∃ between, store.makeChain above = (.ok (), between)
            ∧ Attempt between path result after) := by
  cases hm : store.makeDirectory path with
  | ok made =>
      rw [makeChain, hm] at h
      cases h
      exact Or.inl (.made hm)
  | error cause =>
      by_cases hc : cause = .notFound
      · subst hc
        refine Or.inr ⟨rfl, ?_⟩
        rcases ha : store.makeChain above with ⟨first, between⟩
        simp only [makeChain, hm, ha] at h
        cases first with
        | error error =>
            cases h
            exact Or.inl ⟨error, rfl, rfl⟩
        | ok _ =>
            refine Or.inr ⟨between, rfl, ?_⟩
            cases hm' : between.makeDirectory path with
            | ok made =>
                simp only [hm'] at h
                cases h
                exact .made hm'
            | error error =>
                simp only [hm'] at h
                cases h
                exact .of_error hm'
      · rw [makeChain_of_error hm hc] at h
        cases h
        exact Or.inl (.of_error hm)

/-- Making a chain of directories keeps everything. -/
theorem extends_makeChain (store : Store) (paths : List Path) :
    Extends store (store.makeChain paths).2 := by
  induction paths generalizing store with
  | nil => exact Extends.refl store
  | cons path above ih =>
      have hx := ih store
      rcases h : store.makeChain (path :: above) with ⟨result, after⟩
      rcases makeChain_cons_cases h with hfirst | ⟨-, ⟨cause, ha, -⟩ | ⟨between, ha, hsecond⟩⟩
      · exact hfirst.extends_after
      · rw [ha] at hx
        exact hx
      · rw [ha] at hx
        exact hx.trans hsecond.extends_after

/-- A chain of directories that was made leads to its first one. -/
theorem makeChain_ok {above : List Path} (h : store.makeChain (path :: above) = (.ok (), made)) :
    made.isDirectory path = true := by
  rcases makeChain_cons_cases h with hfirst | ⟨-, ⟨cause, -, he⟩ | ⟨between, -, hsecond⟩⟩
  · exact hfirst.isDirectory
  · cases he
  · exact hsecond.isDirectory

theorem makeChain_of_isDirectory (h : store.isDirectory path = true) (above : List Path) :
    store.makeChain (path :: above) = (.ok (), store) := by
  rw [makeChain_of_error (makeDirectory_of_isDirectory h) nofun, if_pos h]

theorem makeChain_again {paths : List Path} (h : store.makeChain paths = (.ok (), made)) :
    made.makeChain paths = (.ok (), made) := by
  cases paths with
  | nil => rfl
  | cons path above => exact makeChain_of_isDirectory (makeChain_ok h) above

/-! ### Retrying -/

/-- A path on the way to another: the same start, and fewer steps. -/
def IsAbove (upper lower : Path) : Prop :=
  lower.isAbsolute = upper.isAbsolute
    ∧ ∃ tail, tail ≠ [] ∧ Path.steps lower.segments = Path.steps upper.segments ++ tail

/-- A walk that leads anywhere leads to every directory on its way. -/
theorem leads_of_walk {follow : Bool} {segments : List String} {place : Place}
    (hs : store.IsSolid (startOf store.workingDirectory lower)) (ha : IsAbove upper lower)
    (hsteps : Path.steps segments = Path.steps lower.segments)
    (h : store.walk follow maxLinks (startOf store.workingDirectory lower) segments = .ok place) :
    store.Leads upper := by
  rcases ha with ⟨habsolute, tail, hne, htail⟩
  rw [htail, Path.steps, List.filter_eq_append_iff] at hsteps
  rcases hsteps with ⟨first, second, rfl, hfirst, hsecond⟩
  -- At least one step is left after the first part.
  have hstep : ∃ y ∈ second, Path.isStep y = true := by
    rcases List.exists_cons_of_ne_nil hne with ⟨y, ys, hy⟩
    have hm : y ∈ second.filter Path.isStep := by
      rw [hsecond, hy]
      exact List.mem_cons_self
    exact ⟨y, (List.mem_filter.mp hm).1, (List.mem_filter.mp hm).2⟩
  rcases exists_walk_of_append hs hstep h with ⟨d, -, hd⟩
  refine ⟨d, ?_⟩
  rw [walkPath, startOf, ← habsolute]
  exact walk_of_steps_eq hfirst hd

theorem leads_of_leads (hs : store.IsSolid (startOf store.workingDirectory lower))
    (ha : IsAbove upper lower) (h : store.Leads lower) : store.Leads upper := by
  rcases h with ⟨d, hd⟩
  exact leads_of_walk hs ha rfl hd

theorem leads_of_makeDirectory (hs : store.IsSolid (startOf store.workingDirectory lower))
    (ha : IsAbove upper lower) (h : store.makeDirectory lower = .ok made) :
    store.Leads upper := by
  rcases makeDirectory_ok h with ⟨-, hmade, place, hn⟩
  rw [named_eq (isDirectory_iff.mp hmade).1] at hn
  exact leads_of_walk hs ha (steps_namedPath lower).1 hn

/-- Where no directory is and none can be made, making a chain fails again, provided that the
    rest of the chain changes nothing. -/
theorem makeChain_error {above : List Path} {result : Except SystemError Unit}
    (hmake : ∀ made, store.makeDirectory path ≠ .ok made)
    (hdirectory : store.isDirectory path ≠ true)
    (hrest : store.makeChain above = (result, store)) :
    ∃ error, store.makeChain (path :: above) = (.error error, store) := by
  cases hm : store.makeDirectory path with
  | ok made => exact absurd hm (hmake made)
  | error cause =>
      by_cases hc : cause = .notFound
      · subst hc
        cases result with
        | error error => exact ⟨error, by simp only [makeChain, hm, hrest]⟩
        | ok _ =>
            exact ⟨.notFound, by simp only [makeChain, hm, hrest, if_neg hdirectory]⟩
      · exact ⟨cause, by rw [makeChain_of_error hm hc, if_neg hdirectory]⟩

/-- A failure to make a chain of directories is final: either it left the store as it was, or
    it fails again on what it left, and its first path does not lead to a directory. -/
theorem makeChain_retry_cases {paths : List Path} {error : SystemError}
    (hs : ∀ path ∈ paths, store.IsSolid (startOf store.workingDirectory path))
    (htext : ∀ path ∈ paths, path.text ≠ "")
    (hp : paths.Pairwise fun lower upper => IsAbove upper lower)
    (h : store.makeChain paths = (.error error, after)) :
    after = store ∨ (∃ error, after.makeChain paths = (.error error, after))
      ∧ ∀ path ∈ paths.head?, ¬after.Leads path := by
  induction paths generalizing store after error with
  | nil => cases h
  | cons path above ih =>
      rcases List.pairwise_cons.mp hp with ⟨hpath, habove⟩
      have hx := extends_makeChain store (path :: above)
      rw [h] at hx
      have hs' : after.IsSolid (startOf after.workingDirectory path) := by
        rw [hx.workingDirectory]
        exact (hs path List.mem_cons_self).of_extends hx
      -- By induction from the top: either a directory above was the obstacle or this one is.
      rcases makeChain_cons_cases h with hfirst | ⟨hm, ⟨cause, hc, -⟩ | ⟨between, hc, hsecond⟩⟩
      · cases hfirst with
        | failed _ _ => exact Or.inl rfl
      · rcases ih (fun p hp => hs p (List.mem_cons_of_mem _ hp))
          (fun p hp => htext p (List.mem_cons_of_mem _ hp)) habove hc with
          hsame | ⟨⟨again, hagain⟩, hhead⟩
        · exact Or.inl hsame
        · cases above with
          | nil => cases hc
          | cons upper above =>
              -- Whatever leads past the directory above would lead to it, which it does not.
              have hno := hhead upper rfl
              have hu := hpath upper List.mem_cons_self
              have hdirectory : after.isDirectory path ≠ true := fun hd =>
                hno (leads_of_leads hs' hu (isDirectory_iff.mp hd).2)
              refine Or.inr ⟨makeChain_error (fun made hmade =>
                hno (leads_of_makeDirectory hs' hu hmade)) hdirectory hagain, ?_⟩
              rintro first ⟨⟩
              exact fun hl => hno (leads_of_leads hs' hu hl)
      · cases hsecond with
        | failed hm' hdirectory =>
            -- The directories above are there now, so the second attempt fails as it did.
            refine Or.inr ⟨makeChain_error (fun made hmade => ?_) hdirectory
              (makeChain_again hc), ?_⟩
            · rw [hm'] at hmade
              cases hmade
            · rintro first ⟨⟩
              have hchecked := checkPath_of_notFound (htext path List.mem_cons_self) hm
              exact fun hl => hdirectory (isDirectory_iff.mpr ⟨hchecked, hl⟩)

/-- A failure to make a chain of directories is final. -/
theorem makeChain_retry {paths : List Path} {error : SystemError}
    (hs : ∀ path ∈ paths, store.IsSolid (startOf store.workingDirectory path))
    (htext : ∀ path ∈ paths, path.text ≠ "")
    (hp : paths.Pairwise fun lower upper => IsAbove upper lower)
    (h : store.makeChain paths = (.error error, after)) :
    ∃ error, after.makeChain paths = (.error error, after) := by
  rcases makeChain_retry_cases hs htext hp h with rfl | ⟨hagain, -⟩
  · exact ⟨error, h⟩
  · exact hagain

/-! ### The directories on the way to a path -/

theorem chain_eq (h : path.text ≠ "") :
    chain path = path :: ((List.range (path.components.length - 1)).reverse.map fun n =>
      path.upTo (n + 1)).filter fun p => p.text ≠ "/" := by
  rw [chain, if_neg (by rw [String.isEmpty_iff]; exact h)]
  rfl

/-- No path in a chain is the empty one. -/
theorem text_ne_of_mem_chain (h : upper ∈ chain path) : upper.text ≠ "" := by
  by_cases he : path.text = ""
  · rw [chain, if_pos (by rw [he]; rfl)] at h
    cases h
  · rw [chain_eq he] at h
    rcases List.mem_cons.mp h with rfl | h
    · exact he
    · rcases List.mem_map.mp (List.mem_of_mem_filter h) with ⟨n, hn, rfl⟩
      rw [List.mem_reverse, List.mem_range] at hn
      rcases Path.exists_upTo_steps path with ⟨lead, -, -, hfirst⟩
      exact (hfirst (n + 1) (by omega) (by omega)).1

/-- Every path in a chain lies on the way to those before it. -/
theorem chain_isAbove (path : Path) :
    (chain path).Pairwise fun lower upper => IsAbove upper lower := by
  by_cases he : path.text = ""
  · rw [chain, if_pos (by rw [he]; rfl)]
    exact List.Pairwise.nil
  rcases Path.exists_upTo_steps path with ⟨lead, hlead, hlength, hfirst⟩
  rw [chain_eq he, List.pairwise_cons]
  constructor
  · -- The path itself has one step more at least than any path above it.
    intro upper hm
    rcases List.mem_map.mp (List.mem_of_mem_filter hm) with ⟨n, hn, rfl⟩
    rw [List.mem_reverse, List.mem_range] at hn
    rcases hfirst (n + 1) (by omega) (by omega) with ⟨-, habsolute, hsteps⟩
    refine ⟨habsolute.symm, (Path.steps path.segments).drop (n + 1 - lead), ?_, ?_⟩
    · rw [ne_eq, List.drop_eq_nil_iff]
      omega
    · rw [hsteps, List.take_append_drop]
  · -- Among the paths above, the chain goes from the longer to the shorter.
    refine List.Pairwise.filter _ (List.pairwise_map.mpr ?_)
    rw [List.pairwise_reverse]
    refine List.Pairwise.imp_of_mem (fun {m n} hm hn hlt => ?_) List.pairwise_lt_range
    rw [List.mem_range] at hm hn
    rcases hfirst (m + 1) (by omega) (by omega) with ⟨-, habsolute, hsteps⟩
    rcases hfirst (n + 1) (by omega) (by omega) with ⟨-, habsolute', hsteps'⟩
    refine ⟨habsolute'.trans habsolute.symm,
      ((Path.steps path.segments).take (n + 1 - lead)).drop (m + 1 - lead), ?_, ?_⟩
    · rw [ne_eq, List.drop_eq_nil_iff, List.length_take]
      omega
    · have htake : (Path.steps path.segments).take (m + 1 - lead)
          = ((Path.steps path.segments).take (n + 1 - lead)).take (m + 1 - lead) := by
        rw [List.take_take, Nat.min_eq_left (by omega)]
      rw [hsteps, hsteps', htake, List.take_append_drop]

theorem isAbsolute_of_mem_chain (h : upper ∈ chain path) :
    upper.isAbsolute = path.isAbsolute := by
  by_cases he : path.text = ""
  · rw [chain, if_pos (by rw [he]; rfl)] at h
    cases h
  · have habove := chain_isAbove path
    rw [chain_eq he] at h habove
    rcases List.mem_cons.mp h with rfl | hm
    · rfl
    · exact ((List.pairwise_cons.mp habove).1 upper hm).1.symm

/-- A path that has a text and a directory denotes it. -/
theorem isDirectory_of_directory (htext : path.text ≠ "") (h : store.directory path = .ok d) :
    store.isDirectory path = true := by
  rw [directory, if_neg (by rw [String.isEmpty_iff]; exact htext)] at h
  rw [isDirectory]
  split at h
  · next hs => rw [hs]
  · cases h
  · cases h

/-- A path along which one can walk to a directory has it. -/
theorem directory_of_walkPath (hc : checkPath path = .ok ())
    (h : store.walkPath true path = .ok (.found d .directory)) : store.directory path = .ok d := by
  have htext : ¬path.text.isEmpty = true := by
    intro he
    rw [checkPath, if_pos he] at hc
    split at hc
    · cases hc
    · cases hc
  simp only [directory, if_neg htext, status, resolve, hc, h]

/-- A path that denotes a directory has it. -/
theorem exists_directory_of_isDirectory (h : store.isDirectory path = true) :
    ∃ d, store.directory path = .ok d := by
  unfold directory
  split
  · exact ⟨_, rfl⟩
  · rw [isDirectory] at h
    split at h
    · next location hs => exact ⟨location, by rw [hs]⟩
    · cases h

/-- Directories on the way to a path that were made lead to it. -/
theorem makeDirectories_ok (h : store.makeDirectories path = (.ok (), made)) :
    ∃ d, made.directory path = .ok d := by
  by_cases htext : path.text = ""
  · exact ⟨made.workingDirectory, if_pos (by rw [htext]; rfl)⟩
  · rw [makeDirectories, chain_eq htext] at h
    exact exists_directory_of_isDirectory (makeChain_ok h)

theorem makeDirectories_of_directory (h : store.directory path = .ok d) :
    store.makeDirectories path = (.ok (), store) := by
  by_cases htext : path.text = ""
  · rw [makeDirectories, chain, if_pos (by rw [htext]; rfl), makeChain]
  · rw [makeDirectories, chain_eq htext]
    exact makeChain_of_isDirectory (isDirectory_of_directory htext h) _

/-- A failure to make the directories on the way to a path is final. -/
theorem makeDirectories_retry {error : SystemError}
    (hs : store.IsSolid (startOf store.workingDirectory path))
    (h : store.makeDirectories path = (.error error, after)) :
    ∃ error, after.makeDirectories path = (.error error, after) := by
  refine makeChain_retry (fun upper hm => ?_) (fun _ hm => text_ne_of_mem_chain hm)
    (chain_isAbove path) h
  rw [startOf, isAbsolute_of_mem_chain hm]
  exact hs

end Store

end DnsZones
