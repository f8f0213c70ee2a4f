import DnsZones.Proofs.Derivation

/-!
# Stages of a Run

A run taken apart into its stages, and each stage into its answers.

Normalizing and rendering have one shape: the zones are taken in name order, each
is put to a question whose answer may change the state for the next one, and what
comes out is a table of the answers that are good and a list of the errors. The
recursion that does both at once says this only indirectly. `Engine.answers` keeps
the two apart: it lists every zone with its answer, and table and errors are read
off that list.

A run then has four lists of answers or less: the given zones normalized, the
derivation, the derived zones normalized, and whatever survived rendered. A given
zone and a derived one never meet under one name, because deriving passes over
every name that a given zone has kept up to then.

## Main definitions

* `Answer`: What became of one zone at a stage.
* `Engine.answers`: The answers of a stage.
* `Answer.kept`, `Answer.failures`: What comes out of a stage.
* `Engine.passGiven`, `Engine.derivation`, `Engine.passDerived`,
  `Engine.survivors`: The stages of a run.

## Theorems

* `Engine.normalizeEach_eq`, `Engine.renderEach_eq`: Both stages in terms of answers.
* `Answer.get?_kept_iff`: What a stage keeps is what was answered well.
* `Answer.mem_failures_iff`: What a stage reports is what was answered badly.
* `Engine.generate_texts`, `Engine.generate_errors`: A run in terms of its stages.
* `Engine.survivors_get?_of_given`: A given zone that was normalized survives.
-/

namespace DnsZones

/-- What became of one zone at a stage. -/
structure Answer (α : Type) where
  /-- The zone's name. -/
  name : String
  /-- The zone as it came in. -/
  zone : Zone
  /-- What the stage made of it. -/
  result : Except ZoneError α

namespace Answer

variable {α : Type}

/-- The good answers as a table. -/
def kept : List (Answer α) → Table String α
  | [] => Table.empty
  | answer :: rest =>
    match answer.result with
    | .ok value => (kept rest).insert answer.name value
    | .error _ => kept rest

/-- The errors, in order. -/
def failures : List (Answer α) → List ZoneError
  | [] => []
  | answer :: rest =>
    match answer.result with
    | .ok _ => failures rest
    | .error error => error :: failures rest

theorem mem_failures_iff {answers : List (Answer α)} {error : ZoneError} :
    error ∈ failures answers ↔ ∃ answer ∈ answers, answer.result = .error error := by
  induction answers with
  | nil => simp only [failures, List.not_mem_nil, false_and, exists_false]
  | cons head rest ih =>
      cases hr : head.result with
      | ok value =>
          simp only [failures, hr, ih, List.mem_cons, exists_eq_or_imp, reduceCtorEq, false_or]
      | error cause =>
          simp only [failures, hr, ih, List.mem_cons, exists_eq_or_imp, Except.error.injEq]
          exact or_congr_left eq_comm

/-- What is kept under a name is what was answered well for it, as long as no name comes up
    twice. -/
theorem get?_kept_iff {answers : List (Answer α)} {name : String} {value : α}
    (hnames : (answers.map (·.name)).Nodup) :
    (kept answers).get? name = some value
      ↔ ∃ answer ∈ answers, answer.name = name ∧ answer.result = .ok value := by
  induction answers with
  | nil =>
      simp only [kept, Table.get?_empty, reduceCtorEq, List.not_mem_nil, false_and, exists_false]
  | cons head rest ih =>
      rcases List.nodup_cons.mp hnames with ⟨hhead, hrest⟩
      -- The first answer's name does not come back, so it is never overwritten.
      have hlater : ∀ answer ∈ rest, answer.name ≠ head.name := fun answer hm he =>
        hhead (List.mem_map.mpr ⟨answer, hm, he⟩)
      cases hr : head.result with
      | error cause =>
          simp only [kept, hr, ih hrest, List.mem_cons, exists_eq_or_imp, reduceCtorEq, and_false,
            false_or]
      | ok first =>
          simp only [kept, hr, List.mem_cons, exists_eq_or_imp, Except.ok.injEq]
          by_cases hn : name = head.name
          · subst hn
            rw [Table.get?_insert_self, Option.some.injEq]
            constructor
            · intro h
              exact Or.inl ⟨rfl, h⟩
            · rintro (⟨-, h⟩ | ⟨answer, hm, he, -⟩)
              · exact h
              · exact absurd he (hlater answer hm)
          · rw [Table.get?_insert_of_ne _ _ hn, ih hrest]
            constructor
            · exact Or.inr
            · rintro (⟨he, -⟩ | h)
              · exact absurd he.symm hn
              · exact h

end Answer

namespace Engine

variable {σ α : Type}

/-- Put zones to a question, one after the other, and list what is answered. -/
def answers (ask : String → Zone → Action σ ZoneError α) :
    List (String × Zone) → σ → List (Answer α)
  | [], _ => []
  | (name, zone) :: rest, state =>
    ⟨name, zone, (ask name zone state).1⟩ :: answers ask rest (ask name zone state).2

/-- The state after all zones were put to a question. -/
def stateAfter (ask : String → Zone → Action σ ZoneError α) : List (String × Zone) → σ → σ
  | [], state => state
  | (name, zone) :: rest, state => stateAfter ask rest (ask name zone state).2

theorem answers_map (ask : String → Zone → Action σ ZoneError α) (entries : List (String × Zone))
    (state : σ) : (answers ask entries state).map (fun a => (a.name, a.zone)) = entries := by
  induction entries generalizing state with
  | nil => rfl
  | cons head rest ih => exact congrArg (head :: ·) (ih _)

theorem answers_names_nodup (ask : String → Zone → Action σ ZoneError α) (zones : Zones)
    (state : σ) : ((answers ask zones.entries state).map (·.name)).Nodup := by
  have hnames : (answers ask zones.entries state).map (·.name) = zones.entries.map (·.1) := by
    conv_rhs => rw [← answers_map ask zones.entries state, List.map_map]
    rfl
  rw [hnames]
  exact zones.nodup_keys

theorem get?_of_mem_answers {ask : String → Zone → Action σ ZoneError α} {zones : Zones} {state : σ}
    {answer : Answer α} (h : answer ∈ answers ask zones.entries state) :
    zones.get? answer.name = some answer.zone := by
  rw [Table.get?_eq_some_iff, ← answers_map ask zones.entries state]
  exact List.mem_map.mpr ⟨answer, h, rfl⟩

/-- Every zone that is put to a stage is answered. -/
theorem exists_mem_answers {ask : String → Zone → Action σ ZoneError α} {zones : Zones} {state : σ}
    {name : String} {zone : Zone} (h : zones.get? name = some zone) :
    ∃ result, ⟨name, zone, result⟩ ∈ answers ask zones.entries state := by
  rw [Table.get?_eq_some_iff, ← answers_map ask zones.entries state] at h
  rcases List.mem_map.mp h with ⟨answer, hm, he⟩
  cases he
  exact ⟨answer.result, hm⟩

/-- Every answer was given in some state. -/
theorem result_of_mem_answers {ask : String → Zone → Action σ ZoneError α}
    {entries : List (String × Zone)} {state : σ} {answer : Answer α}
    (h : answer ∈ answers ask entries state) :
    ∃ before, (ask answer.name answer.zone before).1 = answer.result := by
  induction entries generalizing state with
  | nil => cases h
  | cons head rest ih =>
      rcases List.mem_cons.mp h with rfl | hm
      · -- The answer of the first zone was given in the state at the beginning.
        exact ⟨state, rfl⟩
      · exact ih hm

theorem answer_unique {ask : String → Zone → Action σ ZoneError α} {zones : Zones} {state : σ}
    {a b : Answer α} (ha : a ∈ answers ask zones.entries state)
    (hb : b ∈ answers ask zones.entries state) (hname : a.name = b.name) : a = b :=
  List.inj_on_of_nodup_map (answers_names_nodup ask zones state) ha hb hname

/-- Normalizing keeps the good answers and reports the others. -/
theorem normalizeEach_eq (engine : Engine σ) (entries : List (String × Zone)) (state : σ) :
    engine.normalizeEach entries state
      = (⟨Answer.kept (answers engine.normalizeZone entries state),
          Answer.failures (answers engine.normalizeZone entries state)⟩,
        stateAfter engine.normalizeZone entries state) := by
  induction entries generalizing state with
  | nil => rfl
  | cons head rest ih =>
      rcases head with ⟨name, zone⟩
      rcases hz : engine.normalizeZone name zone state with ⟨result, after⟩
      cases result with
      | error error =>
          simp only [normalizeEach, answers, stateAfter, Answer.kept, Answer.failures, hz, ih]
      | ok normalized =>
          simp only [normalizeEach, answers, stateAfter, Answer.kept, Answer.failures, hz, ih]

/-- The texts and errors of rendering are its good answers and the others. -/
theorem renderEach_eq (engine : Engine σ) (entries : List (String × Zone)) (state : σ) :
    (engine.renderEach entries state).1.texts = Answer.kept (answers engine.render entries state)
      ∧ (engine.renderEach entries state).1.errors
        = Answer.failures (answers engine.render entries state)
      ∧ (engine.renderEach entries state).2 = stateAfter engine.render entries state := by
  induction entries generalizing state with
  | nil => exact ⟨rfl, rfl, rfl⟩
  | cons head rest ih =>
      rcases head with ⟨name, zone⟩
      rcases hz : engine.render name zone state with ⟨result, after⟩
      rcases ih after with ⟨htexts, herrors, hstate⟩
      cases result with
      | error error =>
          simp only [renderEach, answers, stateAfter, Answer.kept, Answer.failures, hz]
          exact ⟨htexts, congrArg (error :: ·) herrors, hstate⟩
      | ok text =>
          simp only [renderEach, answers, stateAfter, Answer.kept, Answer.failures, hz]
          exact ⟨congrArg (·.insert name text) htexts, herrors, hstate⟩

/-! ### The stages -/

variable (engine : Engine σ) (zones : Zones) (state : σ)

/-- The first stage: the given zones are normalized. -/
def passGiven : Outcome × σ := engine.normalize zones state

/-- The second stage: reverse zones are derived from what the first one kept. -/
def derivation : Derivation := Derivation.ofZones (engine.passGiven zones state).1.zones

/-- The third stage: the derived zones are normalized. -/
def passDerived : Outcome × σ :=
  engine.normalize (engine.derivation zones state).zones (engine.passGiven zones state).2

/-- What the last stage is to render. -/
def survivors : Zones :=
  (engine.passDerived zones state).1.zones.mergeOver (engine.passGiven zones state).1.zones

/-- What became of the given zones when they were normalized. -/
def givenAnswers : List (Answer Zone) := answers engine.normalizeZone zones.entries state

/-- What became of the derived zones when they were normalized. -/
def derivedAnswers : List (Answer Zone) :=
  answers engine.normalizeZone (engine.derivation zones state).zones.entries
    (engine.passGiven zones state).2

/-- What became of the survivors when they were rendered. -/
def renderingAnswers : List (Answer String) :=
  answers engine.render (engine.survivors zones state).entries (engine.passDerived zones state).2

variable {engine zones state}

/-- The first stage keeps a zone under a name exactly if it answered well for the zone that is
    given there. -/
theorem passGiven_get?_iff {name : String} {zone : Zone} :
    (engine.passGiven zones state).1.zones.get? name = some zone
      ↔ ∃ source, ⟨name, source, .ok zone⟩ ∈ engine.givenAnswers zones state := by
  rw [passGiven, normalize, normalizeEach_eq, Answer.get?_kept_iff (answers_names_nodup _ _ _)]
  constructor
  · rintro ⟨⟨_, source, _⟩, hm, rfl, rfl⟩
    exact ⟨source, hm⟩
  · rintro ⟨source, hm⟩
    exact ⟨_, hm, rfl, rfl⟩

theorem passDerived_get?_iff {name : String} {zone : Zone} :
    (engine.passDerived zones state).1.zones.get? name = some zone
      ↔ ∃ source, ⟨name, source, .ok zone⟩ ∈ engine.derivedAnswers zones state := by
  rw [passDerived, normalize, normalizeEach_eq, Answer.get?_kept_iff (answers_names_nodup _ _ _)]
  constructor
  · rintro ⟨⟨_, source, _⟩, hm, rfl, rfl⟩
    exact ⟨source, hm⟩
  · rintro ⟨source, hm⟩
    exact ⟨_, hm, rfl, rfl⟩

/-- A run has a text under a name exactly if a survivor was rendered to it. -/
theorem generate_texts {name text : String} :
    (engine.generate zones state).1.texts.get? name = some text
      ↔ ∃ zone, ⟨name, zone, .ok text⟩ ∈ engine.renderingAnswers zones state := by
  have htexts : (engine.generate zones state).1.texts
      = (engine.renderEach (engine.survivors zones state).entries
          (engine.passDerived zones state).2).1.texts := rfl
  rw [htexts, (renderEach_eq _ _ _).1, Answer.get?_kept_iff (answers_names_nodup _ _ _)]
  constructor
  · rintro ⟨⟨_, zone, _⟩, hm, rfl, rfl⟩
    exact ⟨zone, hm⟩
  · rintro ⟨zone, hm⟩
    exact ⟨_, hm, rfl, rfl⟩

/-- The errors of a run are those of its stages, one stage after the other. -/
theorem generate_errors :
    (engine.generate zones state).1.errors
      = Answer.failures (engine.givenAnswers zones state)
        ++ (engine.derivation zones state).errors
        ++ Answer.failures (engine.derivedAnswers zones state)
        ++ Answer.failures (engine.renderingAnswers zones state) := by
  have herrors : (engine.generate zones state).1.errors
      = (engine.passGiven zones state).1.errors ++ (engine.derivation zones state).errors
        ++ (engine.passDerived zones state).1.errors
        ++ (engine.renderEach (engine.survivors zones state).entries
            (engine.passDerived zones state).2).1.errors := rfl
  rw [herrors, (renderEach_eq _ _ _).2.1]
  simp only [passGiven, passDerived, normalize, normalizeEach_eq, givenAnswers, derivedAnswers,
    renderingAnswers]

/-! ### What survives -/

/-- A given zone that passed the first stage is the survivor under its name. -/
theorem survivors_get?_of_given {name : String} {zone : Zone}
    (h : (engine.passGiven zones state).1.zones.get? name = some zone) :
    (engine.survivors zones state).get? name = some zone := by
  -- No zone is derived under the name, so nothing can be in its place.
  have hderived : (engine.passDerived zones state).1.zones.get? name = none := by
    rw [Option.eq_none_iff_forall_not_mem]
    intro other ho
    rcases passDerived_get?_iff.mp ho with ⟨source, hm⟩
    have hnone := Derivation.ofZones_get?_of_given (Table.contains_iff.mpr ⟨zone, h⟩)
    rw [derivedAnswers] at hm
    rw [derivation] at hm
    exact absurd (get?_of_mem_answers hm) (by rw [hnone]; exact fun he => nomatch he)
  rw [survivors, Table.get?_mergeOver, hderived, Option.none_or, h]

theorem survivors_get?_of_not_given {name : String}
    (h : (engine.passGiven zones state).1.zones.get? name = none) :
    (engine.survivors zones state).get? name
      = (engine.passDerived zones state).1.zones.get? name := by
  rw [survivors, Table.get?_mergeOver, h, Option.or_none]

end Engine

end DnsZones
