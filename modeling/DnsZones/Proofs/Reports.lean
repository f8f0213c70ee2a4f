import DnsZones.Plugin.Recorder
import DnsZones.Proofs.Derivation
import DnsZones.Proofs.Precedence

/-!
# Texts and Errors

What a run says of every zone: a text, an error, or both.

No zone is lost on the way. A normalizing stage reports each zone that it does not
keep, once and under the zone's own name; the last stage renders a zone or reports
it; and what is derived is either kept from a name that is given or goes through
the same two stages. So every name that was given, and every name that a zone asked
for as a reverse zone, ends up with a text or an error, and no other name does.

A name can have both. Two of the four places where errors come up leave the name in
the run. A zone whose reverse zones cannot be derived is reported and rendered all
the same. And the name of a given zone that was dropped is free again, so a derived
zone may take it. Nowhere else does an error meet a text.

## Main definitions

* `Engine.IsReported`: An error of the run names a zone.
* `Engine.IsUnderivable`: A zone asks for reverse zones that cannot be derived.

## Theorems

* `Engine.errors_normalize`: A normalizing stage reports exactly what it drops.
* `Engine.isReported_iff`: Where an error of the run comes from.
* `Engine.accounts_for_every_zone`: No zone is lost.
* `Engine.isReported_iff_of_text`: When a name has a text and an error.
* `Engine.exclusive_iff`: When no name has both.
-/

namespace DnsZones

namespace Answer

/-- The stage failed for the zone. -/
def failed {α : Type} (answer : Answer α) : Bool := !answer.result.isOk

theorem failed_of_ok {α : Type} {answer : Answer α} {value : α} (h : answer.result = .ok value) :
    answer.failed = false := by
  unfold failed
  rw [h]
  rfl

theorem failed_of_error {α : Type} {answer : Answer α} {error : ZoneError}
    (h : answer.result = .error error) : answer.failed = true := by
  unfold failed
  rw [h]
  rfl

/-- Errors that name their zones, listed by the zones they name. -/
theorem failures_map_zone {α : Type} {answers : List (Answer α)}
    (h : ∀ answer ∈ answers, ∀ error, answer.result = .error error → error.zone = answer.name) :
    (failures answers).map (·.zone) = (answers.filter failed).map (·.name) := by
  induction answers with
  | nil => rfl
  | cons first rest ih =>
      have hrest := ih fun answer hm => h answer (List.mem_cons_of_mem _ hm)
      cases hr : first.result with
      | ok value =>
          have hgood : ¬first.failed = true := by
            rw [failed_of_ok hr]
            exact Bool.false_ne_true
          simp only [failures, hr]
          rw [List.filter_cons_of_neg hgood, hrest]
      | error error =>
          have hfirst := h first List.mem_cons_self error hr
          simp only [failures, hr]
          rw [List.filter_cons_of_pos (failed_of_error hr), List.map_cons, List.map_cons, hfirst,
            hrest]

end Answer

namespace Engine

variable {σ α : Type}

/-! ### One stage -/

/-- Whatever a question fails with names the zone that it was about. -/
def NamesItsZone (ask : String → Zone → Action σ ZoneError α) : Prop :=
  ∀ name zone state error, (ask name zone state).1 = .error error → error.zone = name

theorem namesItsZone_normalizeZone (engine : Engine σ) : NamesItsZone engine.normalizeZone := by
  intro name zone state error h
  unfold normalizeZone normalizeInPlace at h
  cases hc : engine.resolveConfig zone.config with
  | error cause =>
      simp only [hc, Except.error.injEq] at h
      rw [← h]
  | ok config =>
      rcases hn : engine.normalizeUnder config name zone state with ⟨result, after⟩
      cases result with
      | error cause =>
          simp only [hc, hn, Except.error.injEq] at h
          rw [← h]
      | ok normalized =>
          simp only [hc, hn] at h
          cases h

theorem namesItsZone_render (engine : Engine σ) : NamesItsZone engine.render := by
  intro name zone state error h
  unfold render at h
  cases hc : engine.resolveConfig zone.config with
  | error cause =>
      simp only [hc, Except.error.injEq] at h
      rw [← h]
  | ok config =>
      rcases hr : engine.renderUnder config name zone state with ⟨result, after⟩
      cases result with
      | error cause =>
          simp only [hc, hr, Except.error.injEq] at h
          rw [← h]
      | ok text =>
          simp only [hc, hr] at h
          cases h

theorem zone_of_mem_answers {ask : String → Zone → Action σ ZoneError α} (hask : NamesItsZone ask)
    {entries : List (String × Zone)} {state : σ} {answer : Answer α} {error : ZoneError}
    (hm : answer ∈ answers ask entries state) (herror : answer.result = .error error) :
    error.zone = answer.name := by
  rcases result_of_mem_answers hm with ⟨before, hb⟩
  exact hask _ _ before _ (hb.trans herror)

/-- A stage keeps a name exactly if it did not fail for the zone there. -/
theorem contains_kept {ask : String → Zone → Action σ ZoneError α} {zones : Zones} {state : σ}
    {answer : Answer α} (hm : answer ∈ answers ask zones.entries state) :
    (Answer.kept (answers ask zones.entries state)).contains answer.name = !answer.failed := by
  -- No name is asked for twice, so what is kept under this one was answered here.
  have hkept : ∀ value, (Answer.kept (answers ask zones.entries state)).get? answer.name
      = some value ↔ answer.result = .ok value := by
    intro value
    rw [Answer.get?_kept_iff (answers_names_nodup _ _ _)]
    constructor
    · rintro ⟨other, ho, hname, hvalue⟩
      rw [answer_unique hm ho hname.symm, hvalue]
    · exact fun hvalue => ⟨answer, hm, rfl, hvalue⟩
  cases hr : answer.result with
  | ok value =>
      rw [Answer.failed_of_ok hr]
      exact Table.contains_iff.mpr ⟨value, (hkept value).mpr hr⟩
  | error error =>
      rw [Answer.failed_of_error hr]
      refine Bool.eq_false_iff.mpr fun hc => ?_
      rcases Table.contains_iff.mp hc with ⟨value, hv⟩
      rw [(hkept value).mp hv] at hr
      cases hr

/-- The errors of a stage name the zones that it does not keep, each once and in order. -/
theorem failures_answers_map_zone {ask : String → Zone → Action σ ZoneError α}
    (hask : NamesItsZone ask) (zones : Zones) (state : σ) :
    (Answer.failures (answers ask zones.entries state)).map (·.zone)
      = zones.keys.filter fun name =>
          !(Answer.kept (answers ask zones.entries state)).contains name := by
  have hkeys : zones.keys = (answers ask zones.entries state).map (·.name) := by
    unfold Table.keys
    conv_lhs => rw [← answers_map ask zones.entries state, List.map_map]
    rfl
  rw [Answer.failures_map_zone fun answer hm error herror => zone_of_mem_answers hask hm herror,
    hkeys, List.filter_map]
  refine congrArg (List.map Answer.name) (List.filter_congr fun answer hm => ?_)
  rw [Function.comp_apply, contains_kept hm, Bool.not_not]

/-- A normalizing stage reports every zone that it drops, once and under the zone's name, in the
    order of the names, and reports nothing else. -/
theorem errors_normalize (engine : Engine σ) (zones : Zones) (state : σ) :
    (engine.normalize zones state).1.errors.map (·.zone)
      = zones.keys.filter fun name => !(engine.normalize zones state).1.zones.contains name := by
  unfold normalize
  rw [normalizeEach_eq]
  exact failures_answers_map_zone (namesItsZone_normalizeZone engine) zones state

/-! ### A whole run -/

variable (engine : Engine σ) (zones : Zones) (state : σ)

/-- An error of the run names the zone. -/
def IsReported (name : String) : Prop :=
  ∃ error ∈ (engine.generate zones state).1.errors, error.zone = name

/-- The zone derived under a name was not normalized. -/
def IsDerivedDropped (name : String) : Prop :=
  ∃ source error, ⟨name, source, .error error⟩ ∈ engine.derivedAnswers zones state

/-- A given zone was normalized and asks for reverse zones that cannot be derived. -/
def IsUnderivable (name : String) : Prop :=
  ∃ zone error, (engine.passGiven zones state).1.zones.get? name = some zone
    ∧ Derivation.failure? name zone = some error

/-- A zone was normalized and could not be rendered. -/
def IsUnrendered (name : String) : Prop :=
  ∃ zone error, ⟨name, zone, .error error⟩ ∈ engine.renderingAnswers zones state

variable {engine zones state} {name text : String}

theorem exists_failure_iff {ask : String → Zone → Action σ ZoneError α} (hask : NamesItsZone ask)
    {entries : List (String × Zone)} {start : σ} :
    (∃ error ∈ Answer.failures (answers ask entries start), error.zone = name)
      ↔ ∃ zone error, ⟨name, zone, .error error⟩ ∈ answers ask entries start := by
  constructor
  · rintro ⟨error, he, rfl⟩
    rcases Answer.mem_failures_iff.mp he with ⟨⟨n, zone, result⟩, hm, hr⟩
    have hn : error.zone = n := zone_of_mem_answers hask hm hr
    cases hr
    exact ⟨zone, error, hn ▸ hm⟩
  · rintro ⟨zone, error, hm⟩
    exact ⟨error, Answer.mem_failures_iff.mpr ⟨_, hm, rfl⟩, zone_of_mem_answers hask hm rfl⟩

theorem exists_derivation_error_iff :
    (∃ error ∈ (engine.derivation zones state).errors, error.zone = name)
      ↔ engine.IsUnderivable zones state name := by
  unfold derivation IsUnderivable
  constructor
  · rintro ⟨error, he, rfl⟩
    rcases Derivation.mem_errors_ofZones_iff.mp he with ⟨source, zone, hz, hf⟩
    have hname := Reverse.zone_of_derive_error (Derivation.failure?_eq_some_iff.mp hf).2
    exact ⟨zone, error, hname ▸ hz, hname ▸ hf⟩
  · rintro ⟨zone, error, hz, hf⟩
    exact ⟨error, Derivation.mem_errors_ofZones_iff.mpr ⟨name, zone, hz, hf⟩,
      Reverse.zone_of_derive_error (Derivation.failure?_eq_some_iff.mp hf).2⟩

/-- An error that names a zone comes from one of the four stages. -/
theorem isReported_iff :
    engine.IsReported zones state name
      ↔ engine.IsDropped zones state name ∨ engine.IsUnderivable zones state name
        ∨ engine.IsDerivedDropped zones state name ∨ engine.IsUnrendered zones state name := by
  have hgiven : (∃ error ∈ Answer.failures (engine.givenAnswers zones state), error.zone = name)
      ↔ engine.IsDropped zones state name :=
    exists_failure_iff (namesItsZone_normalizeZone engine)
  have hderived :
      (∃ error ∈ Answer.failures (engine.derivedAnswers zones state), error.zone = name)
        ↔ engine.IsDerivedDropped zones state name :=
    exists_failure_iff (namesItsZone_normalizeZone engine)
  have hrendered :
      (∃ error ∈ Answer.failures (engine.renderingAnswers zones state), error.zone = name)
        ↔ engine.IsUnrendered zones state name :=
    exists_failure_iff (namesItsZone_render engine)
  unfold IsReported
  rw [generate_errors]
  simp only [List.mem_append, or_and_right, exists_or]
  rw [hgiven, hderived, hrendered, exists_derivation_error_iff, or_assoc, or_assoc]

/-! ### No zone is lost -/

theorem contains_texts_iff :
    (engine.generate zones state).1.texts.contains name = true
      ↔ ∃ zone text, ⟨name, zone, .ok text⟩ ∈ engine.renderingAnswers zones state := by
  rw [Table.contains_iff, exists_comm]
  exact exists_congr fun text => generate_texts

/-- What reaches the last stage gets a text or is reported there. -/
theorem text_or_isReported_of_survivors {zone : Zone}
    (h : (engine.survivors zones state).get? name = some zone) :
    (engine.generate zones state).1.texts.contains name = true
      ∨ engine.IsReported zones state name := by
  have hasked : ∃ result, ⟨name, zone, result⟩ ∈ engine.renderingAnswers zones state :=
    exists_mem_answers h
  rcases hasked with ⟨result, hm⟩
  cases result with
  | ok text => exact Or.inl (contains_texts_iff.mpr ⟨zone, text, hm⟩)
  | error error => exact Or.inr (isReported_iff.mpr (Or.inr (Or.inr (Or.inr ⟨zone, error, hm⟩))))

theorem text_or_isReported_of_given (h : zones.contains name = true) :
    (engine.generate zones state).1.texts.contains name = true
      ∨ engine.IsReported zones state name := by
  rcases Table.contains_iff.mp h with ⟨source, hs⟩
  have hasked : ∃ result, ⟨name, source, result⟩ ∈ engine.givenAnswers zones state :=
    exists_mem_answers hs
  rcases hasked with ⟨result, hm⟩
  cases result with
  | error error => exact Or.inr (isReported_iff.mpr (Or.inl ⟨source, error, hm⟩))
  | ok zone =>
      have hpassed := passGiven_get?_iff.mpr ⟨source, hm⟩
      exact text_or_isReported_of_survivors (survivors_get?_of_given hpassed)

theorem text_or_isReported_of_yields
    (h : Derivation.Yields (engine.passGiven zones state).1.zones name) :
    (engine.generate zones state).1.texts.contains name = true
      ∨ engine.IsReported zones state name := by
  by_cases hg : (engine.passGiven zones state).1.zones.contains name = true
  · -- The name is given, so nothing was derived under it.
    rcases Table.contains_iff.mp hg with ⟨zone, hz⟩
    exact text_or_isReported_of_survivors (survivors_get?_of_given hz)
  · rw [Bool.not_eq_true] at hg
    have hderived := Derivation.contains_ofZones_iff.mpr ⟨hg, h⟩
    rcases Table.contains_iff.mp hderived with ⟨source, hs⟩
    have hasked : ∃ result, ⟨name, source, result⟩ ∈ engine.derivedAnswers zones state :=
      exists_mem_answers hs
    rcases hasked with ⟨result, hm⟩
    cases result with
    | error error =>
        exact Or.inr (isReported_iff.mpr (Or.inr (Or.inr (Or.inl ⟨source, error, hm⟩))))
    | ok zone =>
        have hpassed := passDerived_get?_iff.mpr ⟨source, hm⟩
        have hsurvives : (engine.survivors zones state).get? name = some zone := by
          rw [survivors, Table.get?_mergeOver, hpassed, Option.some_or]
        exact text_or_isReported_of_survivors hsurvives

/-- A text stands under a name that was given or that a zone asked for. -/
theorem given_or_yields_of_text
    (h : (engine.generate zones state).1.texts.contains name = true) :
    zones.contains name = true ∨ Derivation.Yields (engine.passGiven zones state).1.zones name := by
  rcases contains_texts_iff.mp h with ⟨zone, text, hm⟩
  have hsurvives := survivors_get?_of_rendered hm
  rw [survivors, Table.get?_mergeOver, Option.or_eq_some_iff] at hsurvives
  -- What was rendered was derived or given before it was normalized.
  rcases hsurvives with hderived | ⟨-, hgiven⟩
  · rcases passDerived_get?_iff.mp hderived with ⟨source, hs⟩
    have hsource := get?_of_mem_answers hs
    exact Or.inr (Derivation.contains_ofZones_iff.mp (Table.contains_iff.mpr ⟨source, hsource⟩)).2
  · rcases passGiven_get?_iff.mp hgiven with ⟨source, hs⟩
    exact Or.inl (Table.contains_iff.mpr ⟨source, get?_of_mem_answers hs⟩)

/-- No zone is lost. Every given name, and every name that a normalized zone yields a reverse zone
    under, has a text or an error; no other name has a text; and both normalizing stages put one
    error among those of the run for each zone that they drop, under its own name, and none
    besides. -/
theorem accounts_for_every_zone (engine : Engine σ) (zones : Zones) (state : σ) :
    (∀ name, zones.contains name = true →
      (engine.generate zones state).1.texts.contains name = true
        ∨ ∃ error ∈ (engine.generate zones state).1.errors, error.zone = name)
    ∧ (∀ name, Derivation.Yields (engine.passGiven zones state).1.zones name →
      (engine.generate zones state).1.texts.contains name = true
        ∨ ∃ error ∈ (engine.generate zones state).1.errors, error.zone = name)
    ∧ (∀ name, (engine.generate zones state).1.texts.contains name = true →
      zones.contains name = true
        ∨ Derivation.Yields (engine.passGiven zones state).1.zones name)
    ∧ ((engine.passGiven zones state).1.errors.map (·.zone)
      = zones.keys.filter fun name => !(engine.passGiven zones state).1.zones.contains name)
    ∧ ((engine.passDerived zones state).1.errors.map (·.zone)
      = (engine.derivation zones state).zones.keys.filter fun name =>
          !(engine.passDerived zones state).1.zones.contains name)
    ∧ (engine.passGiven zones state).1.errors ++ (engine.derivation zones state).errors
        ++ (engine.passDerived zones state).1.errors
      <+: (engine.generate zones state).1.errors := by
  refine ⟨fun name h => text_or_isReported_of_given h,
    fun name h => text_or_isReported_of_yields h, fun name h => given_or_yields_of_text h,
    errors_normalize engine zones state, errors_normalize engine _ _, ?_⟩
  -- What the last stage reports comes after all of these.
  have herrors : (engine.generate zones state).1.errors
      = (engine.passGiven zones state).1.errors ++ (engine.derivation zones state).errors
        ++ (engine.passDerived zones state).1.errors
        ++ (engine.renderEach (engine.survivors zones state).entries
            (engine.passDerived zones state).2).1.errors := rfl
  rw [herrors]
  exact List.prefix_append _ _

/-! ### Text and error under one name -/

/-- A zone that is derived and then dropped leaves no text under its name. -/
theorem not_text_of_isDerivedDropped (h : engine.IsDerivedDropped zones state name) :
    (engine.generate zones state).1.texts.contains name = false := by
  rcases h with ⟨source, error, herror⟩
  have hsource : (engine.derivation zones state).zones.get? name = some source :=
    get?_of_mem_answers herror
  -- A derived name is not given, so its survivor could only be the derived zone.
  have hgiven := (Derivation.contains_ofZones_iff.mp (Table.contains_iff.mpr ⟨source, hsource⟩)).1
  rw [Table.contains_eq_false_iff] at hgiven
  refine Bool.eq_false_iff.mpr fun htext => ?_
  rcases contains_texts_iff.mp htext with ⟨zone, text, hm⟩
  have hsurvives := survivors_get?_of_rendered hm
  rw [survivors_get?_of_not_given hgiven] at hsurvives
  rcases passDerived_get?_iff.mp hsurvives with ⟨other, hok⟩
  cases answer_unique herror hok rfl

theorem not_text_of_isUnrendered (h : engine.IsUnrendered zones state name) :
    (engine.generate zones state).1.texts.contains name = false := by
  rcases h with ⟨zone, error, herror⟩
  refine Bool.eq_false_iff.mpr fun htext => ?_
  rcases contains_texts_iff.mp htext with ⟨other, text, hok⟩
  cases answer_unique herror hok rfl

/-- A name with a text is also reported in two cases, and in no others: its given zone was dropped
    and the text is that of a zone derived in its place, or the text is that of the given zone,
    whose own reverse zones could not be derived. -/
theorem isReported_iff_of_text
    (htext : (engine.generate zones state).1.texts.get? name = some text) :
    engine.IsReported zones state name
      ↔ (engine.IsDropped zones state name ∧ engine.TextIsDerived zones state name text)
        ∨ (engine.IsUnderivable zones state name ∧ engine.TextIsOwn zones state name text) := by
  have hcontains := Table.contains_iff.mpr ⟨text, htext⟩
  rw [isReported_iff]
  constructor
  · rintro (hdropped | hunderivable | hderived | hunrendered)
    · have hgiven : zones.contains name = true := by
        rcases hdropped with ⟨source, error, hm⟩
        exact Table.contains_iff.mpr ⟨source, get?_of_mem_answers hm⟩
      exact Or.inl ⟨hdropped, text_isDerived_of_isDropped hgiven htext hdropped⟩
    · rcases hunderivable with ⟨zone, error, hz, hf⟩
      rcases passGiven_get?_iff.mp hz with ⟨source, hm⟩
      have hgiven := Table.contains_iff.mpr ⟨source, get?_of_mem_answers hm⟩
      have hpassed : ¬engine.IsDropped zones state name := by
        rw [isDropped_iff hgiven, hz]
        exact fun he => nomatch he
      exact Or.inr ⟨⟨zone, error, hz, hf⟩, text_isOwn_of_not_isDropped hgiven htext hpassed⟩
    -- What the later two stages report has no text.
    · rw [not_text_of_isDerivedDropped hderived] at hcontains
      cases hcontains
    · rw [not_text_of_isUnrendered hunrendered] at hcontains
      cases hcontains
  · rintro (⟨hdropped, -⟩ | ⟨hunderivable, -⟩)
    · exact Or.inl hdropped
    · exact Or.inr (Or.inl hunderivable)

/-- No error of a run names a zone with a text exactly if no text stands under the name of a given
    zone that was dropped, or of one whose reverse zones could not be derived. -/
theorem exclusive_iff (engine : Engine σ) (zones : Zones) (state : σ) :
    (∀ error ∈ (engine.generate zones state).1.errors,
      (engine.generate zones state).1.texts.get? error.zone = none)
    ↔ ∀ name, engine.IsDropped zones state name ∨ engine.IsUnderivable zones state name →
      (engine.generate zones state).1.texts.get? name = none := by
  constructor
  · intro h name hname
    have hreported : engine.IsReported zones state name := by
      rw [isReported_iff]
      exact hname.elim Or.inl fun hu => Or.inr (Or.inl hu)
    rcases hreported with ⟨error, he, rfl⟩
    exact h error he
  · intro h error he
    cases ht : (engine.generate zones state).1.texts.get? error.zone with
    | none => rfl
    | some text =>
        -- A name with text and error is of one of the two kinds, and so has no text.
        have hkind := (isReported_iff_of_text ht).mp ⟨error, he, rfl⟩
        rw [← ht]
        exact h error.zone (hkind.imp And.left And.left)

end Engine

/-! ### A run in which both happen -/

namespace Overlap

/-- A plugin that takes every record as it is. -/
def recorder : Recorder where
  name := "any"
  types := [.a, .ptr, .soa]

def engine : Engine Host where
  registry := (Registry.adopt {} (.ofBuiltin recorder.name) recorder.plugin recorder.types).1
  workingDirectory := ⟨"/"⟩

/-- A zone that asks for reverse zones, with a list of addresses in one record. -/
def listed : Zone where
  config := some { generateReverse := true }
  records := .ofList [("host1", .ofValues .a [⟨"1.2.3.4", none⟩])]

/-- A reverse zone without a configuration, a zone that asks for it, and one that asks for reverse
    zones it cannot have. -/
def zones : Zones :=
  .ofList [("example.com.", Clash.forward), ("listed.", listed), (Clash.reverseName, {})]

/-- Both names with an error have a text. -/
theorem errors_beside_texts :
    (∃ error ∈ (engine.generate zones {}).1.errors, error.zone = "listed."
      ∧ (engine.generate zones {}).1.texts.contains error.zone = true)
    ∧ ∃ error ∈ (engine.generate zones {}).1.errors, error.zone = Clash.reverseName
      ∧ (engine.generate zones {}).1.texts.contains error.zone = true := by
  decide

end Overlap

end DnsZones
