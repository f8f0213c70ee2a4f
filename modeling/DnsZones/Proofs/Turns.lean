import DnsZones.Proofs.Reports

/-!
# One Zone in a Stage

What a stage means to one of the zones that it takes.

A stage takes zones in name order and hands the state on from each to the next.
Seen from one zone there is what came before it, its own turn, and what comes
after. A property of the state that every zone keeps is there when its turn
comes, and one that its turn establishes is there at the end if the others keep
it.

Two runs of a stage, on different zones and from different states, are compared
in the same way. If a relation between the states is kept by the turns of other
zones, in either run, then it does not matter how many there are and where they
sort: the states are related when the zone has its turn, and again at the end.

## Main definitions

* `ZoneError.about`: The errors that name a zone.
* `Answer.errors`: The error that an answer is, if it is one.

## Theorems

* `Engine.stateAfter_invariant`: What every turn keeps.
* `Engine.stateAfter_of_mem_answers`: What one turn establishes and the others keep.
* `Engine.answers_related`: Two runs of a stage.
* `Engine.get?_normalize`, `Engine.about_normalize`: What a stage says of one zone.
-/

namespace DnsZones

/-- The errors that name a zone, in order. -/
def ZoneError.about (name : String) (errors : List ZoneError) : List ZoneError :=
  errors.filter fun error => error.zone == name

theorem ZoneError.about_append (name : String) (errors others : List ZoneError) :
    about name (errors ++ others) = about name errors ++ about name others :=
  List.filter_append ..

namespace Table

variable {κ β : Type} [KeyOrder κ] {table : Table κ β} {key : κ} {value : β}

/-- What comes before and after an entry has other keys. -/
theorem exists_split (h : table.get? key = some value) :
    ∃ before after, table.entries = before ++ (key, value) :: after
      ∧ (∀ e ∈ before, e.1 ≠ key) ∧ ∀ e ∈ after, e.1 ≠ key := by
  rcases List.append_of_mem (get?_eq_some_iff.mp h) with ⟨before, after, hsplit⟩
  have hordered := table.ordered
  rw [hsplit] at hordered
  rcases List.pairwise_append.mp hordered with ⟨-, hafter, hbefore⟩
  refine ⟨before, after, hsplit, fun e he hkey => ?_, fun e he hkey => ?_⟩
  · have hlt := hbefore e he (key, value) List.mem_cons_self
    rw [hkey] at hlt
    exact cmp_self_ne_lt key hlt
  · have hlt := (List.pairwise_cons.mp hafter).1 e he
    rw [hkey] at hlt
    exact cmp_self_ne_lt key hlt

end Table

namespace Answer

variable {α : Type} {answers : List (Answer α)} {answer : Answer α} {name : String}

/-- The error that an answer is, if it is one. -/
def errors (answer : Answer α) : List ZoneError :=
  match answer.result with
  | .ok _ => []
  | .error error => [error]

theorem failures_cons (answer : Answer α) (rest : List (Answer α)) :
    failures (answer :: rest) = answer.errors ++ failures rest := by
  unfold errors
  cases hr : answer.result with
  | ok value => simp only [failures, hr, List.nil_append]
  | error error => simp only [failures, hr, List.singleton_append]

/-- Nothing is said of a zone that was not asked for. -/
theorem about_failures_of_absent
    (hzone : ∀ answer ∈ answers, ∀ error, answer.result = .error error → error.zone = answer.name)
    (h : ∀ answer ∈ answers, answer.name ≠ name) :
    ZoneError.about name (failures answers) = [] := by
  refine List.filter_eq_nil_iff.mpr fun error he => ?_
  rcases mem_failures_iff.mp he with ⟨answer, hm, herror⟩
  rw [beq_iff_eq, hzone answer hm error herror]
  exact h answer hm

/-- What is said of a zone is what it was answered, as long as no name comes up twice. -/
theorem about_failures
    (hzone : ∀ answer ∈ answers, ∀ error, answer.result = .error error → error.zone = answer.name)
    (hnames : (answers.map (·.name)).Nodup) (hm : answer ∈ answers) :
    ZoneError.about answer.name (failures answers) = answer.errors := by
  induction answers with
  | nil => cases hm
  | cons head rest ih =>
      rcases List.nodup_cons.mp hnames with ⟨hhead, hrest⟩
      have hzones := fun answer hm => hzone answer (List.mem_cons_of_mem head hm)
      rw [failures_cons, ZoneError.about_append]
      rcases List.mem_cons.mp hm with rfl | hm
      · -- Of what follows, nothing has the name.
        have hlater : ZoneError.about answer.name (failures rest) = [] :=
          about_failures_of_absent hzones fun later hl he =>
            hhead (List.mem_map.mpr ⟨later, hl, he⟩)
        have hown : ZoneError.about answer.name answer.errors = answer.errors := by
          refine List.filter_eq_self.mpr fun error he => ?_
          unfold errors at he
          split at he
          · cases he
          · next herror =>
              rw [List.mem_singleton.mp he, beq_iff_eq]
              exact hzone answer List.mem_cons_self _ herror
        rw [hlater, hown, List.append_nil]
      · have hfirst : ZoneError.about answer.name head.errors = [] := by
          refine List.filter_eq_nil_iff.mpr fun error he hname => ?_
          unfold errors at he
          split at he
          · cases he
          · next herror =>
              rw [List.mem_singleton.mp he, beq_iff_eq,
                hzone head List.mem_cons_self _ herror] at hname
              exact hhead (List.mem_map.mpr ⟨answer, hm, hname.symm⟩)
        rw [hfirst, List.nil_append]
        exact ih hzones hrest hm

end Answer

namespace Engine

variable {σ α : Type} {ask : String → Zone → Action σ ZoneError α} {zones others : Zones}
  {state other : σ} {name : String} {zone : Zone} {result : Except ZoneError α}

theorem stateAfter_append (ask : String → Zone → Action σ ZoneError α)
    (before after : List (String × Zone)) (state : σ) :
    stateAfter ask (before ++ after) state
      = stateAfter ask after (stateAfter ask before state) := by
  induction before generalizing state with
  | nil => rfl
  | cons head rest ih => exact ih _

theorem answers_append (ask : String → Zone → Action σ ZoneError α)
    (before after : List (String × Zone)) (state : σ) :
    answers ask (before ++ after) state
      = answers ask before state ++ answers ask after (stateAfter ask before state) := by
  induction before generalizing state with
  | nil => rfl
  | cons head rest ih => exact congrArg (_ :: ·) (ih _)

/-- What every turn keeps is there at the end. -/
theorem stateAfter_invariant {motive : σ → Prop} {entries : List (String × Zone)}
    (hstep : ∀ e ∈ entries, ∀ state, motive state → motive (ask e.1 e.2 state).2)
    (h : motive state) : motive (stateAfter ask entries state) := by
  induction entries generalizing state with
  | nil => exact h
  | cons head rest ih =>
      exact ih (fun e he => hstep e (List.mem_cons_of_mem _ he))
        (hstep head List.mem_cons_self state h)

/-- The turn of a zone comes after those before it, and gives the answer for it. -/
theorem result_of_turn {before after : List (String × Zone)}
    (hsplit : zones.entries = before ++ (name, zone) :: after)
    (h : ⟨name, zone, result⟩ ∈ answers ask zones.entries state) :
    (ask name zone (stateAfter ask before state)).1 = result := by
  -- The answer at this place is one for the name, and there is only one.
  have hturn : ⟨name, zone, (ask name zone (stateAfter ask before state)).1⟩
      ∈ answers ask zones.entries state := by
    rw [hsplit, answers_append]
    exact List.mem_append_right _ List.mem_cons_self
  exact congrArg Answer.result (answer_unique hturn h rfl)

/-- What one turn establishes and all others keep is there at the end. -/
theorem stateAfter_of_mem_answers {I K : σ → Prop}
    (hm : ⟨name, zone, result⟩ ∈ answers ask zones.entries state) (h : I state)
    (hreach : ∀ e ∈ zones.entries, ∀ state, I state → I (ask e.1 e.2 state).2)
    (hown : ∀ state, I state → (ask name zone state).1 = result →
      K (ask name zone state).2)
    (hkeep : ∀ e ∈ zones.entries, e.1 ≠ name → ∀ state, K state →
      K (ask e.1 e.2 state).2) : K (stateAfter ask zones.entries state) := by
  rcases Table.exists_split (get?_of_mem_answers hm) with ⟨before, after, hsplit, -, hafter⟩
  have hresult := result_of_turn hsplit hm
  rw [hsplit] at hreach hkeep
  rw [hsplit, stateAfter_append]
  have hturn : I (stateAfter ask before state) :=
    stateAfter_invariant (fun e he => hreach e (List.mem_append_left _ he)) h
  change K (stateAfter ask after (ask name zone (stateAfter ask before state)).2)
  refine stateAfter_invariant (fun e he => ?_) (hown _ hturn hresult)
  exact hkeep e (List.mem_append_right _ (List.mem_cons_of_mem _ he)) (hafter e he)

/-- Two runs of a stage on zones that have the same zone under a name, or none. If a relation of
    the states is kept by all other zones, in either run, and by this one in both at once, then
    the answers for it are related and so are the states at the end. -/
theorem answers_related {β : Type} {R : σ → σ → Prop} {g : Except ZoneError α → β}
    (hname : zones.get? name = others.get? name)
    (hleft : ∀ e ∈ zones.entries, e.1 ≠ name → ∀ state other, R state other →
      R (ask e.1 e.2 state).2 other)
    (hright : ∀ e ∈ others.entries, e.1 ≠ name → ∀ state other, R state other →
      R state (ask e.1 e.2 other).2)
    (hown : ∀ zone, zones.get? name = some zone → ∀ state other, R state other →
      g (ask name zone state).1 = g (ask name zone other).1
        ∧ R (ask name zone state).2 (ask name zone other).2)
    (h : R state other) :
    R (stateAfter ask zones.entries state) (stateAfter ask others.entries other)
      ∧ ∀ zone result result', ⟨name, zone, result⟩ ∈ answers ask zones.entries state →
        ⟨name, zone, result'⟩ ∈ answers ask others.entries other → g result = g result' := by
  -- Turns of other zones, one run after the other.
  have hpass : ∀ {entries entries' : List (String × Zone)} {state other : σ},
      (∀ e ∈ entries, e ∈ zones.entries ∧ e.1 ≠ name) →
      (∀ e ∈ entries', e ∈ others.entries ∧ e.1 ≠ name) → R state other →
      R (stateAfter ask entries state) (stateAfter ask entries' other) := by
    intro entries entries' state other hentries hentries' h
    have hfirst : R (stateAfter ask entries state) other :=
      stateAfter_invariant (motive := fun state => R state other)
        (fun e he s hs => hleft e (hentries e he).1 (hentries e he).2 s other hs) h
    exact stateAfter_invariant (motive := fun other => R (stateAfter ask entries state) other)
      (fun e he s hs => hright e (hentries' e he).1 (hentries' e he).2 _ s hs) hfirst
  cases hzone : zones.get? name with
  | none =>
      -- Neither run has a turn of the zone.
      have habsent : ∀ {zones : Zones}, zones.get? name = none →
          ∀ e ∈ zones.entries, e ∈ zones.entries ∧ e.1 ≠ name := fun hnone e he =>
        ⟨he, fun hkey => Table.get?_eq_none_iff.mp hnone e.2 (hkey ▸ he)⟩
      refine ⟨hpass (habsent hzone) (habsent (hname.symm.trans hzone)) h, ?_⟩
      intro zone result result' hm
      rw [get?_of_mem_answers hm] at hzone
      cases hzone
  | some zone =>
      rcases Table.exists_split hzone with ⟨before, after, hsplit, hbefore, hafter⟩
      rcases Table.exists_split (hname.symm.trans hzone)
        with ⟨before', after', hsplit', hbefore', hafter'⟩
      -- When the zone has its turn, the states are still related.
      have hturn : R (stateAfter ask before state) (stateAfter ask before' other) := by
        refine hpass (fun e he => ⟨?_, hbefore e he⟩) (fun e he => ⟨?_, hbefore' e he⟩) h
        · rw [hsplit]
          exact List.mem_append_left _ he
        · rw [hsplit']
          exact List.mem_append_left _ he
      rcases hown zone hzone _ _ hturn with ⟨hseen, hown⟩
      refine ⟨?_, fun found result result' hm hm' => ?_⟩
      · rw [hsplit, hsplit', stateAfter_append, stateAfter_append]
        change R
          (stateAfter ask after (ask name zone (stateAfter ask before state)).2)
          (stateAfter ask after' (ask name zone (stateAfter ask before' other)).2)
        refine hpass (fun e he => ⟨?_, hafter e he⟩) (fun e he => ⟨?_, hafter' e he⟩) hown
        · rw [hsplit]
          exact List.mem_append_right _ (List.mem_cons_of_mem _ he)
        · rw [hsplit']
          exact List.mem_append_right _ (List.mem_cons_of_mem _ he)
      · have hfound : found = zone :=
          Option.some.inj ((get?_of_mem_answers hm).symm.trans hzone)
        subst hfound
        rw [← result_of_turn hsplit hm, ← result_of_turn hsplit' hm', hseen]

/-! ### What a stage says of one zone -/

theorem normalize_state (engine : Engine σ) (zones : Zones) (state : σ) :
    (engine.normalize zones state).2 = stateAfter engine.normalizeZone zones.entries state :=
  congrArg Prod.snd (normalizeEach_eq _ _ _)

/-- What comes out under a name is the good answer for it. -/
theorem get?_normalize {engine : Engine σ} {result : Except ZoneError Zone}
    (hm : ⟨name, zone, result⟩ ∈ answers engine.normalizeZone zones.entries state) :
    (engine.normalize zones state).1.zones.get? name = result.toOption := by
  rw [normalize, normalizeEach_eq]
  refine Option.ext fun value => ?_
  rw [Answer.get?_kept_iff (answers_names_nodup _ _ _)]
  constructor
  · rintro ⟨answer, ha, hname, hvalue⟩
    rw [answer_unique ha hm hname] at hvalue
    change result = .ok value at hvalue
    rw [hvalue]
    rfl
  · intro hvalue
    cases result with
    | error error => cases hvalue
    | ok found =>
        cases hvalue
        exact ⟨_, hm, rfl, rfl⟩

/-- What is reported of a name is the bad answer for it. -/
theorem about_normalize {engine : Engine σ} {result : Except ZoneError Zone}
    (hm : ⟨name, zone, result⟩ ∈ answers engine.normalizeZone zones.entries state) :
    ZoneError.about name (engine.normalize zones state).1.errors
      = Answer.errors ⟨name, zone, result⟩ := by
  rw [normalize, normalizeEach_eq]
  exact Answer.about_failures
    (fun answer ha error herror =>
      zone_of_mem_answers (namesItsZone_normalizeZone engine) ha herror)
    (answers_names_nodup _ _ _) hm

/-- Of a name that is not given nothing comes out, and nothing is reported. -/
theorem normalize_of_absent (engine : Engine σ) (state : σ) (h : zones.get? name = none) :
    (engine.normalize zones state).1.zones.get? name = none
      ∧ ZoneError.about name (engine.normalize zones state).1.errors = [] := by
  have habsent : ∀ answer ∈ answers engine.normalizeZone zones.entries state,
      answer.name ≠ name := by
    rintro answer hm rfl
    rw [get?_of_mem_answers hm] at h
    cases h
  rw [normalize, normalizeEach_eq]
  constructor
  · refine Option.eq_none_iff_forall_not_mem.mpr fun value hvalue => ?_
    rcases (Answer.get?_kept_iff (answers_names_nodup _ _ _)).mp hvalue with ⟨answer, hm, hname, -⟩
    exact habsent answer hm hname
  · exact Answer.about_failures_of_absent
      (fun answer ha error herror =>
        zone_of_mem_answers (namesItsZone_normalizeZone engine) ha herror) habsent

end Engine

end DnsZones
