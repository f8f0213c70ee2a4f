import DnsZones.Proofs.Builtin.Zones
import DnsZones.Proofs.Stages

/-!
# Soundness of a Run

What can be relied on in everything that a run with the builtin plugins writes.

A zone reaches the last stage on one of two ways: it was given and normalized, or
it was derived from zones that were, and then normalized as well. Both ways go
through the same checks, so a zone file is sound whichever way its zone took. And
nothing that reaches the last stage fails there, so the errors of a run are those
of the stages before.

## Main definitions

* `Engine.Survives`: A zone reaches the last stage.

## Theorems

* `Builtin.zoneIsSound_of_survives`: What reaches the last stage is sound.
* `Builtin.failures_renderingAnswers`: Nothing fails there.
* `Builtin.generate_sound`: Every text is a sound zone's, and every survivor has one.
-/

namespace DnsZones

namespace Engine

variable {σ : Type}

/-- A zone, given or derived, was normalized and so reaches the last stage. -/
def Survives (engine : Engine σ) (zones : Zones) (state : σ) (name : String) (zone : Zone) : Prop :=
  (engine.passGiven zones state).1.zones.get? name = some zone
    ∨ (engine.passDerived zones state).1.zones.get? name = some zone

variable {engine : Engine σ} {zones : Zones} {state : σ} {name : String} {zone : Zone}

/-- The zones that reach the last stage are those that it is given. -/
theorem survives_iff :
    engine.Survives zones state name zone
      ↔ (engine.survivors zones state).get? name = some zone := by
  constructor
  · rintro (hgiven | hderived)
    · exact survivors_get?_of_given hgiven
    · rw [survivors, Table.get?_mergeOver, hderived, Option.some_or]
  · intro h
    rw [survivors, Table.get?_mergeOver, Option.or_eq_some_iff] at h
    rcases h with hderived | ⟨-, hgiven⟩
    · exact Or.inr hderived
    · exact Or.inl hgiven

/-- Whatever reaches the last stage was normalized, in some state. -/
theorem exists_normalizeZone_of_survives (h : engine.Survives zones state name zone) :
    ∃ source before after, engine.normalizeZone name source before = (.ok zone, after) := by
  -- Both ways lead through an answer of a normalizing stage.
  have hanswer : ∃ source entries start,
      ⟨name, source, .ok zone⟩ ∈ answers engine.normalizeZone entries start := by
    rcases h with hgiven | hderived
    · rcases passGiven_get?_iff.mp hgiven with ⟨source, hm⟩
      exact ⟨source, _, _, hm⟩
    · rcases passDerived_get?_iff.mp hderived with ⟨source, hm⟩
      exact ⟨source, _, _, hm⟩
  rcases hanswer with ⟨source, entries, start, hm⟩
  rcases result_of_mem_answers hm with ⟨before, hb⟩
  exact ⟨source, before, _, Prod.ext hb rfl⟩

end Engine

namespace Builtin

variable {timeout : Duration} {defaults : Option Config} {zones : Zones} {host : Host}
  {name : String} {zone : Zone}

/-- Whatever reaches the last stage is sound. -/
theorem zoneIsSound_of_survives
    (h : (engine timeout defaults host).Survives zones host name zone) : ZoneIsSound name zone := by
  rcases Engine.exists_normalizeZone_of_survives h with ⟨source, before, after, hn⟩
  exact zoneIsSound_of_normalizeZone hn

theorem render_of_survives (h : (engine timeout defaults host).Survives zones host name zone)
    (other : Host) :
    (engine timeout defaults host).render name zone other = (.ok (fileText name zone), other) := by
  rcases Engine.exists_normalizeZone_of_survives h with ⟨source, before, after, hn⟩
  exact render_eq (isWritable_of_normalizeZone hn) name other

/-- An answer of the last stage is the text of a zone that reached it. -/
theorem result_of_mem_renderingAnswers {answer : Answer String}
    (h : answer ∈ (engine timeout defaults host).renderingAnswers zones host) :
    (engine timeout defaults host).Survives zones host answer.name answer.zone
      ∧ answer.result = .ok (fileText answer.name answer.zone) := by
  have hsurvives := Engine.survives_iff.mpr (Engine.get?_of_mem_answers h)
  rcases Engine.result_of_mem_answers h with ⟨before, hb⟩
  rw [render_of_survives hsurvives] at hb
  exact ⟨hsurvives, hb.symm⟩

/-- A run has a text under a name exactly if a zone of that name reached the last stage. -/
theorem generate_texts_iff {text : String} :
    ((engine timeout defaults host).generate zones host).1.texts.get? name = some text
      ↔ ∃ zone, (engine timeout defaults host).Survives zones host name zone
        ∧ fileText name zone = text := by
  rw [Engine.generate_texts]
  constructor
  · rintro ⟨zone, hm⟩
    rcases result_of_mem_renderingAnswers hm with ⟨hsurvives, hresult⟩
    exact ⟨zone, hsurvives, (Except.ok.inj hresult).symm⟩
  · rintro ⟨zone, hsurvives, rfl⟩
    -- Every survivor is asked for its text.
    have hasked : ∃ result,
        ⟨name, zone, result⟩ ∈ (engine timeout defaults host).renderingAnswers zones host :=
      Engine.exists_mem_answers (Engine.survives_iff.mp hsurvives)
    rcases hasked with ⟨result, hm⟩
    rcases result_of_mem_renderingAnswers hm with ⟨-, hresult⟩
    exact ⟨zone, hresult ▸ hm⟩

/-- Nothing fails at the last stage. -/
theorem failures_renderingAnswers :
    Answer.failures ((engine timeout defaults host).renderingAnswers zones host) = [] := by
  refine List.eq_nil_iff_forall_not_mem.mpr fun error he => ?_
  rcases Answer.mem_failures_iff.mp he with ⟨answer, hm, herror⟩
  rcases result_of_mem_renderingAnswers hm with ⟨-, hresult⟩
  rw [hresult] at herror
  cases herror

/-- The errors of a run are those of the stages before the last. -/
theorem generate_errors_eq :
    ((engine timeout defaults host).generate zones host).1.errors
      = ((engine timeout defaults host).passGiven zones host).1.errors
        ++ ((engine timeout defaults host).derivation zones host).errors
        ++ ((engine timeout defaults host).passDerived zones host).1.errors := by
  rw [Engine.generate_errors, failures_renderingAnswers, List.append_nil]
  simp only [Engine.passGiven, Engine.passDerived, Engine.normalize, Engine.normalizeEach_eq,
    Engine.givenAnswers, Engine.derivedAnswers]

/-- A run with the builtin plugins is sound: every text is that of a zone that was given or
    derived, was normalized, and is sound, and it does not depend on when or where the zone is
    rendered. Conversely, every zone that was normalized has its text, so that the last stage
    adds no error to those of the stages before. -/
theorem generate_sound (timeout : Duration) (defaults : Option Config) (zones : Zones)
    (host : Host) :
    (∀ name text,
      ((engine timeout defaults host).generate zones host).1.texts.get? name = some text →
      ∃ zone, (engine timeout defaults host).Survives zones host name zone ∧ ZoneIsSound name zone
        ∧ ∀ other, (engine timeout defaults host).render name zone other = (.ok text, other))
    ∧ (∀ name zone, (engine timeout defaults host).Survives zones host name zone →
      ∃ text, ((engine timeout defaults host).generate zones host).1.texts.get? name = some text
        ∧ ∀ other, (engine timeout defaults host).render name zone other = (.ok text, other))
    ∧ ((engine timeout defaults host).renderEach
        ((engine timeout defaults host).survivors zones host).entries
        ((engine timeout defaults host).passDerived zones host).2).1.errors = []
    ∧ ((engine timeout defaults host).generate zones host).1.errors
      = ((engine timeout defaults host).passGiven zones host).1.errors
        ++ ((engine timeout defaults host).derivation zones host).errors
        ++ ((engine timeout defaults host).passDerived zones host).1.errors := by
  -- The errors of the last stage are its bad answers, of which there are none.
  have hrendered : ((engine timeout defaults host).renderEach
      ((engine timeout defaults host).survivors zones host).entries
      ((engine timeout defaults host).passDerived zones host).2).1.errors = [] := by
    rw [(Engine.renderEach_eq _ _ _).2.1]
    exact failures_renderingAnswers
  refine ⟨fun name text htext => ?_, fun name zone hsurvives => ?_, hrendered, ?_⟩
  · rcases generate_texts_iff.mp htext with ⟨zone, hsurvives, rfl⟩
    exact ⟨zone, hsurvives, zoneIsSound_of_survives hsurvives, render_of_survives hsurvives⟩
  · exact ⟨_, generate_texts_iff.mpr ⟨zone, hsurvives, rfl⟩, render_of_survives hsurvives⟩
  · exact generate_errors_eq

end Builtin

end DnsZones
