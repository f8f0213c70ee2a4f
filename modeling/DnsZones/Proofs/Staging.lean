import DnsZones.Proofs.Calls
import DnsZones.Proofs.Normalization

/-!
# The Stages of One Zone

Which calls normalizing one zone makes, whatever the plugins do.

The calls follow a plan that is known beforehand: every plugin is told the
configuration, then every record goes to the plugin for its type, in identifier
order, and then every plugin checks the zone that came out. Only two things in it
depend on the run. The zone in the last part is made of what the plugins answered
in the middle part. And the plan ends early where a record's type has no plugin:
then the records before it are still put to theirs, and nothing is checked.

A run either carries out the whole plan, and then every call succeeded, or breaks
off with the first call that fails. So no plugin ever checks a zone in which some
records were not normalized, and nothing is called after a failure.

## Main definitions

* `Engine.calls`: The calls that normalizing a zone makes.
* `Engine.plan`: The calls that are planned.
* `Engine.IsNormalForm`: A zone is made of what the plugins answered.
* `Engine.IsStaged`: How the calls and the result relate to the plan.
* `Engine.RecordsEnd`, `Engine.StagesEnd`: How the calls for records, and those for a zone, end.

## Theorems

* `Engine.normalizeRecords_traced`: The calls of the middle part.
* `Engine.normalizeUnder_traced`: The calls under a configuration.
* `Engine.normalizeInPlace_of_error`, `Engine.normalizeInPlace_of_ok`: What stands in the place
  of a zone.
* `Engine.normalizeZone_staged`: The calls for a zone.
-/

namespace DnsZones

namespace Engine

variable {σ : Type}

/-! ### The plan -/

/-- The type of a record has a plugin. -/
def hasPlugin (engine : Engine σ) (e : String × Record) : Bool :=
  (engine.registry.entry? e.2.type).isSome

/-- The calls for the records before the first whose type has no plugin. -/
def normalizings (engine : Engine σ) (config : Config) (name : String)
    (entries : List (String × Record)) : List (Nat × Call) :=
  (entries.takeWhile engine.hasPlugin).filterMap fun e =>
    (engine.registry.entry? e.2.type).map fun entry =>
      (entry.identity, .normalize config name e.1 e.2)

/-- The calls before anything is checked. -/
def preparations (engine : Engine σ) (config : Config) (name : String) (zone : Zone) :
    List (Nat × Call) :=
  (engine.registry.plugins.map fun entry => (entry.identity, .configure config))
    ++ engine.normalizings config name zone.records.entries

/-- The calls that are planned for a zone: every plugin is configured, every record is normalized
    up to the first without a plugin, and if there is no such record every plugin checks the zone
    that came out. -/
def plan (engine : Engine σ) (config : Config) (name : String) (zone normalized : Zone) :
    List (Nat × Call) :=
  engine.preparations config name zone
    ++ if zone.records.entries.all engine.hasPlugin then
        engine.registry.plugins.map fun entry => (entry.identity, .validateZone name normalized)
      else []

/-- Each record is what the plugin for its source's type gave in one of the calls. -/
def AreAnswers (engine : Engine σ) (config : Config) (name : String)
    (entries : List (String × Record)) (made : List Event) (records : Table String Record) : Prop :=
  ∀ identifier record, records.get? identifier = some record →
    ∃ source entry, (identifier, source) ∈ entries
      ∧ engine.registry.entry? source.type = some entry
      ∧ ⟨entry.identity, .normalize config name identifier source, .ok (some record)⟩ ∈ made

/-- A zone has the identifiers and the time to live of its source, the settled configuration, and
    the records that the plugins gave. -/
structure IsNormalForm (engine : Engine σ) (config : Config) (name : String) (zone : Zone)
    (made : List Event) (normalized : Zone) : Prop where
  settled : normalized.config = some config
  ttl : normalized.ttl = zone.ttl
  identifiers : normalized.records.keys = zone.records.keys
  records : engine.AreAnswers config name zone.records.entries made normalized.records

/-- How the calls for a zone and the result relate to the plan. -/
structure IsStaged (engine : Engine σ) (config : Config) (name : String) (zone : Zone)
    (made : List Event) (result : Except ZoneError Zone) (normalized : Zone) : Prop where
  /-- The calls are the first of those planned. -/
  calls : made.map Event.request <+: engine.plan config name zone normalized
  /-- Only the last call can have failed. -/
  early : ∀ event ∈ made.dropLast, event.succeeded = true
  /-- Every zone that was checked is the one made of the answers. -/
  checked : ∀ event ∈ made, ∀ given other, event.call = .validateZone given other →
    given = name ∧ other = normalized ∧ engine.IsNormalForm config name zone made other
  /-- A zone that passed was made of the answers, and took all the calls. -/
  passed : ∀ other, result = .ok other →
    other = normalized ∧ engine.IsNormalForm config name zone made other
      ∧ made.map Event.request = engine.plan config name zone normalized
      ∧ ∀ event ∈ made, event.succeeded = true
  /-- A zone failed by a call, or for want of a plugin after all the calls there could be. -/
  failed : ∀ error, result = .error error →
    (∃ event, made.getLast? = some event ∧ event.succeeded = false)
      ∨ (zone.records.entries.all engine.hasPlugin = false
        ∧ made.map Event.request = engine.plan config name zone normalized)

/-! ### The middle part -/

variable {engine : Engine σ} {config : Config} {name : String}

theorem lookup_traced (engine : Engine σ) (type : RecordType) :
    engine.traced.registry.lookup type
      = (engine.registry.entry? type).map fun entry => entry.plugin.traced entry.identity := by
  unfold Engine.traced Registry.lookup
  rw [Registry.entry?_traced, Option.map_map]
  rfl

theorem normalizings_of_none {identifier : String} {record : Record}
    (h : engine.registry.entry? record.type = none) (rest : List (String × Record)) :
    engine.normalizings config name ((identifier, record) :: rest) = [] := by
  have hno : ¬engine.hasPlugin (identifier, record) = true := by
    unfold hasPlugin
    rw [h]
    exact Bool.false_ne_true
  unfold normalizings
  rw [List.takeWhile_cons_of_neg hno, List.filterMap_nil]

theorem normalizings_of_some {identifier : String} {record : Record} {entry : Registered σ}
    (h : engine.registry.entry? record.type = some entry) (rest : List (String × Record)) :
    engine.normalizings config name ((identifier, record) :: rest)
      = [(entry.identity, .normalize config name identifier record)]
        ++ engine.normalizings config name rest := by
  have hyes : engine.hasPlugin (identifier, record) = true := by
    unfold hasPlugin
    rw [h]
    rfl
  unfold normalizings
  rw [List.takeWhile_cons_of_pos hyes, List.filterMap_cons]
  simp only [h, Option.map_some, List.singleton_append]

theorem AreAnswers.insert {entries : List (String × Record)} {made : List Event}
    {records : Table String Record} (h : engine.AreAnswers config name entries made records)
    {identifier : String} {source record : Record} {entry : Registered σ}
    (hentry : engine.registry.entry? source.type = some entry) :
    engine.AreAnswers config name ((identifier, source) :: entries)
      (⟨entry.identity, .normalize config name identifier source, .ok (some record)⟩ :: made)
      (records.insert identifier record) := by
  intro other found hfound
  by_cases ho : other = identifier
  · subst ho
    rw [Table.get?_insert_self, Option.some.injEq] at hfound
    subst hfound
    exact ⟨source, entry, List.mem_cons_self, hentry, List.mem_cons_self⟩
  · rw [Table.get?_insert_of_ne _ _ ho] at hfound
    rcases h other found hfound with ⟨origin, registered, hm, hr, he⟩
    exact ⟨origin, registered, List.mem_cons_of_mem _ hm, hr, List.mem_cons_of_mem _ he⟩

/-- How the calls for some records end. -/
inductive RecordsEnd (engine : Engine σ) (config : Config) (name : String)
    (entries : List (String × Record)) (made : List Event) :
    Except ZoneError.Cause (Table String Record) → Prop
  /-- All of them were made, and what comes out is made of the answers. -/
  | all (records : Table String Record) (plugins : entries.all engine.hasPlugin = true)
      (calls : Completes (engine.normalizings config name entries) made)
      (identifiers : ∀ identifier, records.contains identifier = true
        ↔ identifier ∈ entries.map (·.1))
      (answers : engine.AreAnswers config name entries made records) :
      RecordsEnd engine config name entries made (.ok records)
  /-- All were made up to a record without a plugin. -/
  | missing {cause : ZoneError.Cause} (plugins : entries.all engine.hasPlugin = false)
      (calls : Completes (engine.normalizings config name entries) made) :
      RecordsEnd engine config name entries made (.error cause)
  /-- One of them failed. -/
  | broken {cause : ZoneError.Cause}
      (calls : Breaks (engine.normalizings config name entries) made) :
      RecordsEnd engine config name entries made (.error cause)

theorem RecordsEnd.nil : engine.RecordsEnd config name [] [] (.ok Table.empty) := by
  refine .all _ rfl Completes.nil (fun identifier => ?_) fun identifier record h => ?_
  · exact iff_of_false Bool.false_ne_true List.not_mem_nil
  · rw [Table.get?_empty] at h
    cases h

/-- One more record in front, which was normalized, changes nothing about the end. -/
theorem RecordsEnd.cons {entries : List (String × Record)} {made : List Event}
    {result : Except ZoneError.Cause (Table String Record)}
    (h : engine.RecordsEnd config name entries made result) {identifier : String}
    {source record : Record} {entry : Registered σ}
    (hentry : engine.registry.entry? source.type = some entry) :
    engine.RecordsEnd config name ((identifier, source) :: entries)
      (⟨entry.identity, .normalize config name identifier source, .ok (some record)⟩ :: made)
      (result.map (·.insert identifier record)) := by
  have hall : ((identifier, source) :: entries).all engine.hasPlugin
      = entries.all engine.hasPlugin := by
    rw [List.all_cons, hasPlugin, hentry]
    rfl
  have hone := Completes.single
    ⟨entry.identity, .normalize config name identifier source, .ok (some record)⟩ rfl
  have hcalls : engine.normalizings config name ((identifier, source) :: entries)
      = [(entry.identity, .normalize config name identifier source)]
        ++ engine.normalizings config name entries := normalizings_of_some hentry entries
  cases h with
  | all records plugins calls identifiers answers =>
      refine .all _ (hall.trans plugins) ?_ (fun other => ?_) (answers.insert hentry)
      · rw [hcalls]
        exact hone.append calls
      · rw [Table.contains_insert_iff, identifiers other, List.map_cons, List.mem_cons]
  | missing plugins calls =>
      refine .missing (hall.trans plugins) ?_
      rw [hcalls]
      exact hone.append calls
  | broken calls =>
      refine .broken ?_
      rw [hcalls]
      exact hone.append_breaks calls

/-- The calls for the records are those for the plain engine's records, and end in one of the three
    ways. -/
theorem normalizeRecords_traced {entries : List (String × Record)} {state after : σ}
    {result : Except ZoneError.Cause (Table String Record)}
    (hrun : engine.normalizeRecords config name entries state = (result, after))
    (events : List Event) :
    ∃ made, engine.traced.normalizeRecords config name entries (state, events)
        = (result, after, events ++ made)
      ∧ engine.RecordsEnd config name entries made result := by
  induction entries generalizing state after result events with
  | nil =>
      cases hrun
      exact ⟨[], by rw [List.append_nil]; rfl, RecordsEnd.nil⟩
  | cons head rest ih =>
      rcases head with ⟨identifier, source⟩
      cases hentry : engine.registry.entry? source.type with
      | none =>
          have hlookup : engine.registry.lookup source.type = none := by
            rw [Registry.lookup, hentry, Option.map_none]
          have htraced : engine.traced.registry.lookup source.type = none := by
            rw [lookup_traced, hentry, Option.map_none]
          rw [normalizeRecords_cons_of_none hlookup] at hrun
          cases hrun
          refine ⟨[], ?_, .missing ?_ ?_⟩
          · rw [normalizeRecords_cons_of_none htraced, List.append_nil]
          · rw [List.all_cons, hasPlugin, hentry]
            rfl
          · rw [normalizings_of_none hentry]
            exact Completes.nil
      | some entry =>
          have hlookup : engine.registry.lookup source.type = some entry.plugin := by
            rw [Registry.lookup, hentry, Option.map_some]
          have htraced : engine.traced.registry.lookup source.type
              = some (entry.plugin.traced entry.identity) := by
            rw [lookup_traced, hentry, Option.map_some]
          rcases ha : entry.plugin.normalize config name identifier source state
            with ⟨answer, between⟩
          have hnoted : (entry.plugin.traced entry.identity).normalize config name identifier source
              (state, events) = (answer, between,
                events ++ [⟨entry.identity, .normalize config name identifier source,
                  answer.map some⟩]) := by
            simp only [Plugin.traced, noted, ha]
          cases answer with
          | error cause =>
              rw [normalizeRecords_cons_of_error hlookup ha] at hrun
              cases hrun
              refine ⟨_, normalizeRecords_cons_of_error htraced hnoted, .broken ?_⟩
              rw [normalizings_of_some hentry]
              exact (Breaks.single ⟨entry.identity, .normalize config name identifier source,
                .error cause⟩ rfl).append _
          | ok record =>
              rw [normalizeRecords_cons_of_ok hlookup ha] at hrun
              -- What is left is normalized in the state after the call, which is in the list now.
              rcases hr : engine.normalizeRecords config name rest between with ⟨others, last⟩
              rw [hr] at hrun
              cases hrun
              rcases ih hr (events ++ [⟨entry.identity, .normalize config name identifier source,
                .ok (some record)⟩]) with ⟨made, hmade, hends⟩
              refine ⟨_, ?_, hends.cons hentry⟩
              rw [normalizeRecords_cons_of_ok htraced hnoted]
              simp only [Except.map, hmade, List.append_assoc, List.singleton_append]

/-! ### The whole -/

variable {zone normalized : Zone} {made : List Event}

theorem AreAnswers.mono {entries : List (String × Record)} {records : Table String Record}
    (h : engine.AreAnswers config name entries made records) {later : List Event}
    (hsub : ∀ event ∈ made, event ∈ later) :
    engine.AreAnswers config name entries later records := by
  intro identifier record hr
  rcases h identifier record hr with ⟨source, entry, hm, hentry, hevent⟩
  exact ⟨source, entry, hm, hentry, hsub _ hevent⟩

/-- Nothing is checked before every record is normalized. -/
theorem not_mem_preparations (identity : Nat) (given : String) (other : Zone) :
    (identity, Call.validateZone given other) ∉ engine.preparations config name zone := by
  intro h
  rcases List.mem_append.mp h with hm | hm
  · rcases List.mem_map.mp hm with ⟨entry, -, he⟩
    cases he
  · rcases List.mem_filterMap.mp hm with ⟨e, -, he⟩
    rcases Option.map_eq_some_iff.mp he with ⟨entry, -, hc⟩
    cases hc

theorem eq_of_mem_plan {identity : Nat} {given : String} {other : Zone}
    (h : (identity, Call.validateZone given other) ∈ engine.plan config name zone normalized) :
    given = name ∧ other = normalized := by
  rcases List.mem_append.mp h with hm | hm
  · exact absurd hm (not_mem_preparations identity given other)
  · split at hm
    · rcases List.mem_map.mp hm with ⟨entry, -, he⟩
      cases he
      exact ⟨rfl, rfl⟩
    · cases hm

theorem plan_of_all (h : zone.records.entries.all engine.hasPlugin = true) :
    engine.plan config name zone normalized
      = engine.preparations config name zone
        ++ engine.registry.plugins.map fun entry =>
            (entry.identity, .validateZone name normalized) := by
  unfold plan
  rw [if_pos h]

theorem plan_of_not_all (h : zone.records.entries.all engine.hasPlugin = false) :
    engine.plan config name zone normalized = engine.preparations config name zone := by
  unfold plan
  rw [if_neg (by rw [h]; exact Bool.false_ne_true), List.append_nil]

/-- How the calls for a zone under a configuration end. -/
inductive StagesEnd (engine : Engine σ) (config : Config) (name : String) (zone : Zone)
    (made : List Event) (normalized : Zone) : Except ZoneError.Cause Zone → Prop
  /-- All were made, and the zone passes. -/
  | passed (normal : engine.IsNormalForm config name zone made normalized)
      (calls : Completes (engine.plan config name zone normalized) made) :
      StagesEnd engine config name zone made normalized (.ok normalized)
  /-- Every record was normalized, and a check failed. -/
  | rejected {cause : ZoneError.Cause}
      (normal : engine.IsNormalForm config name zone made normalized)
      (calls : Breaks (engine.plan config name zone normalized) made) :
      StagesEnd engine config name zone made normalized (.error cause)
  /-- All were made up to a record without a plugin. -/
  | missing {cause : ZoneError.Cause} (plugins : zone.records.entries.all engine.hasPlugin = false)
      (calls : Completes (engine.preparations config name zone) made) :
      StagesEnd engine config name zone made normalized (.error cause)
  /-- One failed before anything was checked. -/
  | broken {cause : ZoneError.Cause} (calls : Breaks (engine.preparations config name zone) made) :
      StagesEnd engine config name zone made normalized (.error cause)

/-- Records that are made of the answers make a zone that is. -/
theorem isNormalForm_of_answers {records : Table String Record} {first middle : List Event}
    (hkeys : ∀ identifier, records.contains identifier = true
      ↔ identifier ∈ zone.records.entries.map (·.1))
    (h : engine.AreAnswers config name zone.records.entries middle records) (final : List Event) :
    engine.IsNormalForm config name zone (first ++ middle ++ final)
      ⟨some config, records, zone.ttl⟩ := by
  refine ⟨rfl, rfl, ?_, h.mono fun event hm => ?_⟩
  · refine Table.keys_eq_of_contains fun identifier => Bool.eq_iff_iff.mpr ?_
    rw [hkeys identifier, Table.contains_iff]
    exact Table.mem_keys_iff
  · exact List.mem_append_left _ (List.mem_append_right _ hm)

/-- The calls under a configuration are those of the plain engine's run, and end in one of the four
    ways. -/
theorem normalizeUnder_traced {state after : σ} {result : Except ZoneError.Cause Zone}
    (hrun : engine.normalizeUnder config name zone state = (result, after)) :
    ∃ made normalized, engine.traced.normalizeUnder config name zone (state, [])
        = (result, after, made)
      ∧ engine.StagesEnd config name zone made normalized result := by
  have hplugins : engine.traced.registry.plugins = engine.registry.plugins.map .traced :=
    Registry.plugins_traced engine.registry
  simp only [normalizeUnder] at hrun
  rcases hc : configureEach config engine.registry.plugins state with ⟨configured, prepared⟩
  rcases configureEach_traced hc [] with ⟨first, hfirst, hends⟩
  rw [← hplugins, List.nil_append] at hfirst
  simp only [hc] at hrun
  rcases hends with ⟨rfl, hconfigured⟩ | ⟨⟨cause, rfl⟩, hbreaks⟩
  -- A stage that fails ends the run; the case that goes on is kept for last.
  rotate_left
  · cases hrun
    refine ⟨first, zone, ?_, .broken (hbreaks.append _)⟩
    simp only [normalizeUnder, hfirst]
  rcases hn : engine.normalizeRecords config name zone.records.entries prepared
    with ⟨answered, between⟩
  rcases normalizeRecords_traced hn first with ⟨middle, hmiddle, hends⟩
  simp only [hn] at hrun
  cases hends with
  | missing plugins calls =>
      cases hrun
      refine ⟨first ++ middle, zone, ?_, .missing plugins (hconfigured.append calls)⟩
      simp only [normalizeUnder, hfirst, hmiddle]
  | broken calls =>
      cases hrun
      refine ⟨first ++ middle, zone, ?_, .broken (hconfigured.append_breaks calls)⟩
      simp only [normalizeUnder, hfirst, hmiddle]
  | all records plugins calls identifiers answers =>
      have hprepared := hconfigured.append calls
      -- Every record has a plugin, so the checks are part of the plan.
      have hplan : engine.plan config name zone ⟨some config, records, zone.ttl⟩
          = engine.preparations config name zone
            ++ engine.registry.plugins.map fun entry =>
                (entry.identity, .validateZone name ⟨some config, records, zone.ttl⟩) :=
        plan_of_all plugins
      rcases hv : validateEach name ⟨some config, records, zone.ttl⟩ engine.registry.plugins between
        with ⟨checked, last⟩
      rcases validateEach_traced hv (first ++ middle) with ⟨final, hfinal, hends⟩
      rw [← hplugins] at hfinal
      have hnormal : engine.IsNormalForm config name zone (first ++ middle ++ final)
          ⟨some config, records, zone.ttl⟩ := isNormalForm_of_answers identifiers answers final
      refine ⟨first ++ middle ++ final, ⟨some config, records, zone.ttl⟩, ?_⟩
      simp only [hv] at hrun
      rcases hends with ⟨rfl, hchecked⟩ | ⟨⟨cause, rfl⟩, hbreaks⟩
      · cases hrun
        refine ⟨?_, .passed hnormal ?_⟩
        · simp only [normalizeUnder, hfirst, hmiddle, hfinal]
        · rw [hplan]
          exact hprepared.append hchecked
      · cases hrun
        refine ⟨?_, .rejected hnormal ?_⟩
        · simp only [normalizeUnder, hfirst, hmiddle, hfinal]
        · rw [hplan]
          exact hprepared.append_breaks hbreaks

namespace StagesEnd

variable {result : Except ZoneError.Cause Zone}

theorem requests (h : engine.StagesEnd config name zone made normalized result) :
    made.map Event.request <+: engine.plan config name zone normalized := by
  cases h with
  | passed normal calls => exact requests_isPrefix (Or.inl calls)
  | rejected normal calls => exact calls.requests
  | missing plugins calls =>
      rw [plan_of_not_all plugins]
      exact requests_isPrefix (Or.inl calls)
  | broken calls => exact calls.requests.trans (List.prefix_append _ _)

theorem early (h : engine.StagesEnd config name zone made normalized result) :
    ∀ event ∈ made.dropLast, event.succeeded = true := by
  intro event hm
  cases h with
  | passed normal calls => exact succeeded_of_mem_dropLast (Or.inl calls) hm
  | rejected normal calls => exact calls.succeeded event hm
  | missing plugins calls => exact succeeded_of_mem_dropLast (Or.inl calls) hm
  | broken calls => exact calls.succeeded event hm

/-- A check was planned only after every record was normalized, and was planned for the zone that
    came out. -/
theorem checked (h : engine.StagesEnd config name zone made normalized result) {event : Event}
    (hm : event ∈ made) {given : String} {other : Zone}
    (hcall : event.call = .validateZone given other) :
    given = name ∧ other = normalized ∧ engine.IsNormalForm config name zone made other := by
  have hrequest : (event.plugin, Call.validateZone given other) ∈ made.map Event.request := by
    rw [← hcall]
    exact List.mem_map_of_mem hm
  have hplanned := eq_of_mem_plan (h.requests.subset hrequest)
  -- Calls that stay within the preparations include no check at all.
  have hunchecked : ¬made.map Event.request <+: engine.preparations config name zone :=
    fun hbegins => not_mem_preparations event.plugin given other (hbegins.subset hrequest)
  cases h with
  | passed normal calls => exact ⟨hplanned.1, hplanned.2, hplanned.2 ▸ normal⟩
  | rejected normal calls => exact ⟨hplanned.1, hplanned.2, hplanned.2 ▸ normal⟩
  | missing plugins calls => exact absurd (requests_isPrefix (Or.inl calls)) hunchecked
  | broken calls => exact absurd calls.requests hunchecked

theorem isStaged (h : engine.StagesEnd config name zone made normalized result) :
    engine.IsStaged config name zone made (result.mapError (⟨name, ·⟩)) normalized := by
  refine ⟨h.requests, h.early, fun event hm given other hcall => h.checked hm hcall, ?_, ?_⟩
  · intro other hother
    cases h with
    | passed normal calls =>
        cases hother
        exact ⟨rfl, normal, calls.requests, calls.succeeded⟩
    | rejected normal calls => cases hother
    | missing plugins calls => cases hother
    | broken calls => cases hother
  · intro error herror
    cases h with
    | passed normal calls => cases herror
    | rejected normal calls => exact Or.inl calls.failed
    | missing plugins calls =>
        rw [plan_of_not_all plugins]
        exact Or.inr ⟨plugins, calls.requests⟩
    | broken calls => exact Or.inl calls.failed

end StagesEnd

/-- The calls that normalizing a zone makes. -/
def calls (engine : Engine σ) (name : String) (zone : Zone) (state : σ) : List Event :=
  (engine.traced.normalizeZone name zone (state, [])).2.2

theorem normalizeZone_of_settled {config : Config}
    (hc : engine.resolveConfig zone.config = .ok config) (state : σ) :
    engine.normalizeZone name zone state
      = ((engine.normalizeUnder config name zone state).1.mapError (⟨name, ·⟩),
        (engine.normalizeUnder config name zone state).2) := by
  unfold normalizeZone normalizeInPlace
  rcases hn : engine.normalizeUnder config name zone state with ⟨result, after⟩
  cases result with
  | error cause => simp only [hc, hn, Except.mapError]
  | ok normalized => simp only [hc, hn, Except.mapError]

/-- Forgetting the calls gives back what the plain engine does. -/
theorem normalizeZone_traced (engine : Engine σ) (name : String) (zone : Zone) (state : σ) :
    engine.traced.normalizeZone name zone (state, [])
      = ((engine.normalizeZone name zone state).1, (engine.normalizeZone name zone state).2,
        engine.calls name zone state) := by
  have htraced : engine.traced.resolveConfig zone.config = engine.resolveConfig zone.config := rfl
  unfold calls
  cases hc : engine.resolveConfig zone.config with
  | error cause =>
      unfold normalizeZone normalizeInPlace
      simp only [htraced, hc]
  | ok config =>
      rw [normalizeZone_of_settled hc, normalizeZone_of_settled (htraced.trans hc)]
      -- Result and state of the traced run are those of the plain one, whatever was made.
      rcases hn : engine.normalizeUnder config name zone state with ⟨result, after⟩
      rcases normalizeUnder_traced hn with ⟨made, normalized, hmade, -⟩
      rw [hmade]

/-- Under a settled configuration the calls and the result are as planned. -/
theorem isStaged_of_settled {config : Config} (hc : engine.resolveConfig zone.config = .ok config)
    (state : σ) :
    ∃ normalized, engine.IsStaged config name zone (engine.calls name zone state)
      (engine.normalizeZone name zone state).1 normalized := by
  have htraced : engine.traced.resolveConfig zone.config = .ok config := hc
  rcases hn : engine.normalizeUnder config name zone state with ⟨result, after⟩
  rcases normalizeUnder_traced hn with ⟨made, normalized, hmade, hends⟩
  have hcalls : engine.calls name zone state = made := by
    unfold calls
    rw [normalizeZone_of_settled htraced, hmade]
  have hresult : (engine.normalizeZone name zone state).1 = result.mapError (⟨name, ·⟩) := by
    rw [normalizeZone_of_settled hc, hn]
  rw [hcalls, hresult]
  exact ⟨normalized, hends.isStaged⟩

/-- A zone that fails is left in its place as it was. -/
theorem normalizeInPlace_of_error {error : ZoneError} {state : σ}
    (h : (engine.normalizeZone name zone state).1 = .error error) :
    engine.normalizeInPlace name (zone, state)
      = (.error error, zone, (engine.normalizeZone name zone state).2) := by
  unfold normalizeZone normalizeInPlace at h ⊢
  cases hc : engine.resolveConfig zone.config with
  | error cause =>
      simp only [hc] at h ⊢
      cases h
      rfl
  | ok config =>
      rcases hn : engine.normalizeUnder config name zone state with ⟨result, after⟩
      cases result with
      | error cause =>
          simp only [hc, hn] at h ⊢
          cases h
          rfl
      | ok normalized =>
          simp only [hc, hn] at h
          cases h

/-- A zone that passes is replaced by the one that came out. -/
theorem normalizeInPlace_of_ok {normalized : Zone} {state : σ}
    (h : (engine.normalizeZone name zone state).1 = .ok normalized) :
    engine.normalizeInPlace name (zone, state)
      = (.ok (), normalized, (engine.normalizeZone name zone state).2) := by
  unfold normalizeZone at h ⊢
  rcases hp : engine.normalizeInPlace name (zone, state) with ⟨result, placed, after⟩
  cases result with
  | error error =>
      rw [hp] at h
      cases h
  | ok _ =>
      rw [hp] at h
      cases h
      rfl

/-- The staging of one zone. The calls are those of the run itself. Every plugin that is registered
    is among the ones configured and asked for checks, once. A zone without a configuration that can
    be settled takes no call. Any other has its calls made as planned, in stages, up to the first
    that fails, and passes with the zone that all plugins checked. A zone that does not pass is left
    as it was. -/
theorem normalizeZone_staged (engine : Engine σ) (name : String) (zone : Zone) (state : σ) :
    engine.traced.normalizeZone name zone (state, [])
        = ((engine.normalizeZone name zone state).1, (engine.normalizeZone name zone state).2,
          engine.calls name zone state)
      ∧ (engine.registry.plugins.map (·.identity)).Nodup
      ∧ (∀ identity, identity ∈ engine.registry.plugins.map (·.identity)
        ↔ ∃ type entry, engine.registry.entry? type = some entry ∧ entry.identity = identity)
      ∧ (∀ cause, engine.resolveConfig zone.config = .error cause →
        engine.calls name zone state = []
          ∧ (engine.normalizeZone name zone state).1 = .error ⟨name, cause⟩)
      ∧ (∀ config, engine.resolveConfig zone.config = .ok config →
        ∃ normalized, engine.IsStaged config name zone (engine.calls name zone state)
          (engine.normalizeZone name zone state).1 normalized)
      ∧ (∀ error, (engine.normalizeZone name zone state).1 = .error error →
        engine.normalizeInPlace name (zone, state)
          = (.error error, zone, (engine.normalizeZone name zone state).2))
      ∧ ∀ normalized, (engine.normalizeZone name zone state).1 = .ok normalized →
        engine.normalizeInPlace name (zone, state)
          = (.ok (), normalized, (engine.normalizeZone name zone state).2) := by
  rcases Registry.plugins_spec engine.registry with ⟨hnodup, hmem⟩
  refine ⟨normalizeZone_traced engine name zone state, hnodup, hmem, fun cause hc => ?_,
    fun config hc => isStaged_of_settled hc state, fun _ => normalizeInPlace_of_error,
    fun _ => normalizeInPlace_of_ok⟩
  have htraced : engine.traced.resolveConfig zone.config = .error cause := hc
  unfold calls normalizeZone normalizeInPlace
  simp only [htraced, hc, and_self]

end Engine

end DnsZones
