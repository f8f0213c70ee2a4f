import DnsZones.Proofs.Builtin.Registry
import DnsZones.Proofs.Stages

/-!
# Given Zones and Derived Zones

Which of two zones of one name is rendered.

A reverse zone may be given in the definition and also be one that other zones
ask for. The given one is to win. What a derivation is held against, though, are
not the zones of the definition but those that the first stage kept. A given zone
that failed there no longer stands in the way of a derived zone of its name, and
that zone's text appears under the name of a zone that was reported as failed.

So a text under a given name has one of two origins, and the first stage alone
decides which: what the given zone was normalized to, if it passed, and a derived
zone, if it did not.

## Main definitions

* `Engine.IsDropped`: A given zone failed the first stage.
* `Engine.TextIsOwn`: A text is the rendering of what a given zone was normalized to.
* `Engine.TextIsDerived`: A text is the rendering of a zone derived from others.

## Theorems

* `Engine.text_isOwn_of_not_isDropped`: A zone that passes the first stage has its own text.
* `Engine.text_isDerived_of_isDropped`: A zone that does not has a derived one, if any.
* `Engine.text_origin`: The two together.
-/

namespace DnsZones

namespace Engine

variable {σ : Type} (engine : Engine σ) (zones : Zones) (state : σ)

/-- The zone given under a name was not normalized. -/
def IsDropped (name : String) : Prop :=
  ∃ source error, ⟨name, source, .error error⟩ ∈ engine.givenAnswers zones state

/-- The text under a name is what the zone that is given there was rendered to, as it was
    normalized. -/
def TextIsOwn (name text : String) : Prop :=
  ∃ source zone, zones.get? name = some source
    ∧ ⟨name, source, .ok zone⟩ ∈ engine.givenAnswers zones state
    ∧ ⟨name, zone, .ok text⟩ ∈ engine.renderingAnswers zones state

/-- The text under a name is what a reverse zone was rendered to that other zones asked for,
    as it was normalized. -/
def TextIsDerived (name text : String) : Prop :=
  ∃ source zone, (engine.derivation zones state).zones.get? name = some source
    ∧ ⟨name, source, .ok zone⟩ ∈ engine.derivedAnswers zones state
    ∧ ⟨name, zone, .ok text⟩ ∈ engine.renderingAnswers zones state

variable {engine zones state} {name text : String}

/-- A given zone is dropped exactly if nothing of it reaches the later stages. -/
theorem isDropped_iff (hgiven : zones.contains name = true) :
    engine.IsDropped zones state name
      ↔ (engine.passGiven zones state).1.zones.get? name = none := by
  rcases Table.contains_iff.mp hgiven with ⟨source, hs⟩
  have hasked : ∃ result, ⟨name, source, result⟩ ∈ engine.givenAnswers zones state :=
    exists_mem_answers hs
  rcases hasked with ⟨result, hanswer⟩
  constructor
  · rintro ⟨other, error, herror⟩
    rw [Option.eq_none_iff_forall_ne_some]
    intro zone hzone
    -- A zone is answered once, so it cannot have both failed and passed.
    rcases passGiven_get?_iff.mp hzone with ⟨another, hok⟩
    cases answer_unique herror hok rfl
  · intro hnone
    cases result with
    | error error => exact ⟨source, error, hanswer⟩
    | ok zone =>
        rw [passGiven_get?_iff.mpr ⟨source, hanswer⟩] at hnone
        cases hnone

theorem survivors_get?_of_rendered {zone : Zone}
    (h : ⟨name, zone, .ok text⟩ ∈ engine.renderingAnswers zones state) :
    (engine.survivors zones state).get? name = some zone :=
  get?_of_mem_answers h

/-- The text of a given zone that passed the first stage is its own. -/
theorem text_isOwn_of_not_isDropped (hgiven : zones.contains name = true)
    (htext : (engine.generate zones state).1.texts.get? name = some text)
    (hpassed : ¬engine.IsDropped zones state name) : engine.TextIsOwn zones state name text := by
  rcases generate_texts.mp htext with ⟨rendered, hr⟩
  rw [isDropped_iff hgiven, ← ne_eq, Option.ne_none_iff_exists'] at hpassed
  rcases hpassed with ⟨zone, hzone⟩
  -- What was rendered is the survivor of that name, which is the given zone.
  have hsame := survivors_get?_of_rendered hr
  rw [survivors_get?_of_given hzone, Option.some.injEq] at hsame
  subst hsame
  rcases passGiven_get?_iff.mp hzone with ⟨source, hs⟩
  exact ⟨source, zone, get?_of_mem_answers hs, hs, hr⟩

/-- The text under the name of a given zone that was dropped is a derived zone's. -/
theorem text_isDerived_of_isDropped (hgiven : zones.contains name = true)
    (htext : (engine.generate zones state).1.texts.get? name = some text)
    (hdropped : engine.IsDropped zones state name) :
    engine.TextIsDerived zones state name text := by
  rcases generate_texts.mp htext with ⟨zone, hr⟩
  -- Nothing given is left under the name, so what survived there was derived.
  have hzone := survivors_get?_of_rendered hr
  rw [survivors_get?_of_not_given ((isDropped_iff hgiven).mp hdropped)] at hzone
  rcases passDerived_get?_iff.mp hzone with ⟨source, hs⟩
  exact ⟨source, zone, get?_of_mem_answers hs, hs, hr⟩

theorem not_isDropped_of_textIsOwn (h : engine.TextIsOwn zones state name text) :
    ¬engine.IsDropped zones state name := by
  rcases h with ⟨source, zone, -, hok, -⟩
  rintro ⟨other, error, herror⟩
  cases answer_unique herror hok rfl

/-- A derived text shows that nothing of its name passed the first stage. -/
theorem isDropped_of_textIsDerived (hgiven : zones.contains name = true)
    (h : engine.TextIsDerived zones state name text) : engine.IsDropped zones state name := by
  rcases h with ⟨source, zone, hderived, -, -⟩
  rw [isDropped_iff hgiven, Option.eq_none_iff_forall_ne_some]
  -- A kept zone would have kept every derived one from its name.
  intro kept hkept
  rw [derivation, Derivation.ofZones_get?_of_given (Table.contains_iff.mpr ⟨kept, hkept⟩)]
    at hderived
  cases hderived

/-- Where a text under a given name comes from: from the given zone exactly if that zone passed
    the first stage, and from a derived one exactly if it did not. -/
theorem text_origin (hgiven : zones.contains name = true)
    (htext : (engine.generate zones state).1.texts.get? name = some text) :
    (engine.TextIsOwn zones state name text ↔ ¬engine.IsDropped zones state name)
      ∧ (engine.TextIsDerived zones state name text ↔ engine.IsDropped zones state name) :=
  ⟨⟨not_isDropped_of_textIsOwn, text_isOwn_of_not_isDropped hgiven htext⟩,
    isDropped_of_textIsDerived hgiven, text_isDerived_of_isDropped hgiven htext⟩

end Engine

/-! ### A definition with both -/

namespace Clash

/-- A zone with one address that asks for its reverse zone. -/
def forward : Zone where
  config := some { generateReverse := true }
  records := .ofList [
    ("example.com.", .ofValues .soa [⟨"ns1.example.com.", none⟩, ⟨"hostmaster@example.com", none⟩,
      ⟨"7", none⟩, ⟨"3600", none⟩, ⟨"600", none⟩, ⟨"86400", none⟩, ⟨"300", none⟩]),
    ("host1", .ofValue .a ⟨"1.2.3.4", none⟩)]

/-- That reverse zone as somebody might give it, but without a start of authority. -/
def reverse : Zone where
  config := some {}
  records := .ofList [("1", .ofValue .ptr ⟨"gw.example.com.", none⟩)]

/-- The reverse zone's name. -/
def reverseName : String := "3.2.1.in-addr.arpa."

/-- A definition of the two zones. -/
def zones : Zones := .ofList [("example.com.", forward), (reverseName, reverse)]

/-- The builtin plugins on an empty host. -/
def engine : Engine Host := Builtin.engine Serial.defaultTimeout none {}

theorem reverse_isDropped : engine.IsDropped zones {} reverseName := by
  rw [Engine.isDropped_iff (by decide)]
  decide

theorem exists_text : ∃ text, (engine.generate zones {}).1.texts.get? reverseName = some text := by
  have hsome : ((engine.generate zones {}).1.texts.get? reverseName).isSome = true := by
    decide
  exact Option.isSome_iff_exists.mp hsome

/-- Where that text comes from is decided by the first stage. -/
theorem text_origin_reverse :
    ∃ text, zones.contains reverseName = true
      ∧ (engine.generate zones {}).1.texts.get? reverseName = some text
      ∧ (engine.TextIsOwn zones {} reverseName text ↔ ¬engine.IsDropped zones {} reverseName)
      ∧ (engine.TextIsDerived zones {} reverseName text
        ↔ engine.IsDropped zones {} reverseName) := by
  have hgiven : zones.contains reverseName = true := by decide
  rcases exists_text with ⟨text, htext⟩
  exact ⟨text, hgiven, htext, Engine.text_origin hgiven htext⟩

/-- It is the text of a derived zone, not of the zone that is given. -/
theorem derived_replaces_given :
    ∃ text, zones.contains reverseName = true
      ∧ (engine.generate zones {}).1.texts.get? reverseName = some text
      ∧ ¬engine.TextIsOwn zones {} reverseName text
      ∧ engine.TextIsDerived zones {} reverseName text := by
  have hgiven : zones.contains reverseName = true := by decide
  rcases exists_text with ⟨text, htext⟩
  exact ⟨text, hgiven, htext, fun hown => Engine.not_isDropped_of_textIsOwn hown reverse_isDropped,
    Engine.text_isDerived_of_isDropped hgiven htext reverse_isDropped⟩

end Clash

end DnsZones
