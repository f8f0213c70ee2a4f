import DnsZones.Normalization
import DnsZones.Proofs.Table

/-!
# What Normalizing Establishes

What is known of a zone that came out of normalization, whatever the plugins do.

The stages run plugins one after the other on a state that each of them may
change, so nothing can be said about the state in which a plugin was asked. What
can be said is that it was asked, in some state, and what it answered: every
record that came out is the answer of the plugin for the type of the record that
went in, and every plugin accepted the zone that came out. A guarantee that a
plugin gives in every state then holds for the zone.

Normalizing a zone a second time is harmless for the same reason: a record that its
plugin leaves alone stays, whatever was asked before.

## Main definitions

* `Answers`: An operation has a result in some state.
* `Engine.Leaves`: A record is left alone by the plugin for its type.

## Theorems

* `Engine.normalizeRecords_cons_ok`: Records that are normalized, one by one.
* `Engine.normalizeRecords_ok`: Every record is a plugin's answer.
* `Engine.validateEach_ok`: Every plugin accepted the zone.
* `Engine.stages_of_normalizeZone`: A zone that was normalized passed all stages.
* `Engine.normalizeZone_ok`: What is known of its records, and who accepted it.
* `Engine.answers_of_normalizeZone`: No record of a zone that is normalized was refused.
* `Engine.normalizeRecords_of_leaves_others`: One record may decide what comes out.
* `Engine.normalizeZone_of_leaves`: A zone whose records need nothing done comes out as
  it went in.
-/

namespace DnsZones

/-- An operation has a result in some state. -/
def Answers {σ ε α : Type} (action : Action σ ε α) (result : α) : Prop :=
  ∃ before after, action before = (.ok result, after)

namespace Engine

variable {σ : Type} {engine : Engine σ}

section Cons

variable {config : Config} {name key : String} {source normalized : Record}
  {rest : List (String × Record)} {state between : σ} {plugin : Plugin σ} {cause : PluginError}

theorem normalizeRecords_cons_of_none (hl : engine.registry.lookup source.type = none) :
    engine.normalizeRecords config name ((key, source) :: rest) state
      = (.error (.noPlugin key source.type), state) := by
  simp only [normalizeRecords, hl]

theorem normalizeRecords_cons_of_error (hl : engine.registry.lookup source.type = some plugin)
    (h : plugin.normalize config name key source state = (.error cause, between)) :
    engine.normalizeRecords config name ((key, source) :: rest) state
      = (.error (.normalize key cause), between) := by
  simp only [normalizeRecords, hl, h]

theorem normalizeRecords_cons_of_ok (hl : engine.registry.lookup source.type = some plugin)
    (h : plugin.normalize config name key source state = (.ok normalized, between)) :
    engine.normalizeRecords config name ((key, source) :: rest) state
      = ((engine.normalizeRecords config name rest between).1.map (·.insert key normalized),
        (engine.normalizeRecords config name rest between).2) := by
  rcases hrest : engine.normalizeRecords config name rest between with ⟨result, last⟩
  cases result with
  | error cause => simp only [normalizeRecords, hl, h, hrest, Except.map]
  | ok others => simp only [normalizeRecords, hl, h, hrest, Except.map]

/-- Records are normalized one after the other, and only all together. -/
theorem normalizeRecords_cons_ok {after : σ} {records : Table String Record}
    (h : engine.normalizeRecords config name ((key, source) :: rest) state
      = (.ok records, after)) :
    ∃ plugin normalized between others, engine.registry.lookup source.type = some plugin
      ∧ plugin.normalize config name key source state = (.ok normalized, between)
      ∧ engine.normalizeRecords config name rest between = (.ok others, after)
      ∧ records = others.insert key normalized := by
  cases hl : engine.registry.lookup source.type with
  | none =>
      rw [normalizeRecords_cons_of_none hl] at h
      cases h
  | some plugin =>
      rcases hn : plugin.normalize config name key source state with ⟨result, between⟩
      cases result with
      | error cause =>
          rw [normalizeRecords_cons_of_error hl hn] at h
          cases h
      | ok normalized =>
          rw [normalizeRecords_cons_of_ok hl hn] at h
          rcases hrest : engine.normalizeRecords config name rest between with ⟨result, last⟩
          rw [hrest] at h
          cases result with
          | error cause => cases h
          | ok others =>
              cases h
              exact ⟨plugin, normalized, between, others, rfl, hn, hrest, rfl⟩

end Cons

/-- Every record that normalizing records gives is what the plugin for its source's type
    made of that source. -/
theorem normalizeRecords_ok {config : Config} {name : String} {entries : List (String × Record)}
    {state after : σ} {records : Table String Record}
    (h : engine.normalizeRecords config name entries state = (.ok records, after))
    {identifier : String} {record : Record} (hr : records.get? identifier = some record) :
    ∃ source plugin, (identifier, source) ∈ entries
      ∧ engine.registry.lookup source.type = some plugin
      ∧ Answers (plugin.normalize config name identifier source) record := by
  induction entries generalizing state records with
  | nil =>
      cases h
      rw [Table.get?_empty] at hr
      cases hr
  | cons head rest ih =>
      rcases head with ⟨key, source⟩
      rcases normalizeRecords_cons_ok h with
        ⟨plugin, normalized, between, others, hl, hn, hrest, rfl⟩
      -- The record that is looked up is the first or one of the rest.
      by_cases hk : identifier = key
      · subst hk
        rw [Table.get?_insert_self, Option.some.injEq] at hr
        subst hr
        exact ⟨source, plugin, List.mem_cons_self, hl, state, between, hn⟩
      · rw [Table.get?_insert_of_ne _ _ hk] at hr
        rcases ih hrest hr with ⟨origin, other, hm, hanswer⟩
        exact ⟨origin, other, List.mem_cons_of_mem _ hm, hanswer⟩

/-- A zone that passes was accepted by every plugin. -/
theorem validateEach_ok {name : String} {zone : Zone} {plugins : List (Registered σ)}
    {state after : σ} (h : validateEach name zone plugins state = (.ok (), after))
    {entry : Registered σ} (he : entry ∈ plugins) :
    Answers (entry.plugin.validateZone name zone) () := by
  induction plugins generalizing state with
  | nil => cases he
  | cons first rest ih =>
      simp only [validateEach] at h
      rcases hv : first.plugin.validateZone name zone state with ⟨result, between⟩
      cases result with
      | error cause =>
          rw [hv] at h
          cases h
      | ok _ =>
          simp only [hv] at h
          -- The first plugin passed in the state at hand, a later one in a later state.
          rcases List.mem_cons.mp he with rfl | he
          · exact ⟨state, between, hv⟩
          · exact ih h he

/-- A zone that was normalized passed all four stages. -/
theorem stages_of_normalizeZone {name : String} {source zone : Zone} {state after : σ}
    (h : engine.normalizeZone name source state = (.ok zone, after)) :
    ∃ config prepared records between, engine.resolveConfig source.config = .ok config
      ∧ configureEach config engine.registry.plugins state = (.ok (), prepared)
      ∧ engine.normalizeRecords config name source.records.entries prepared
        = (.ok records, between)
      ∧ validateEach name ⟨some config, records, source.ttl⟩ engine.registry.plugins between
        = (.ok (), after)
      ∧ zone = ⟨some config, records, source.ttl⟩ := by
  simp only [normalizeZone, normalizeInPlace] at h
  cases hc : engine.resolveConfig source.config with
  | error cause =>
      rw [hc] at h
      cases h
  | ok config =>
      simp only [hc, normalizeUnder] at h
      -- Each stage has to succeed for the next one to run.
      rcases hp : configureEach config engine.registry.plugins state with ⟨result, prepared⟩
      cases result with
      | error cause =>
          simp only [hp] at h
          cases h
      | ok _ =>
          simp only [hp] at h
          rcases hn : engine.normalizeRecords config name source.records.entries prepared
            with ⟨result, between⟩
          cases result with
          | error cause =>
              simp only [hn] at h
              cases h
          | ok records =>
              simp only [hn] at h
              rcases hv : validateEach name ⟨some config, records, source.ttl⟩
                engine.registry.plugins between with ⟨result, last⟩
              cases result with
              | error cause =>
                  simp only [hv] at h
                  cases h
              | ok _ =>
                  simp only [hv] at h
                  cases h
                  exact ⟨config, prepared, records, between, rfl, hp, hn, hv, rfl⟩

/-- What is known of a zone that was normalized: it carries the configuration that its source's
    settled to, its records are plugins' answers, and every plugin accepted it. -/
theorem normalizeZone_ok {name : String} {source zone : Zone} {state after : σ}
    (h : engine.normalizeZone name source state = (.ok zone, after)) :
    ∃ config, engine.resolveConfig source.config = .ok config ∧ zone.config = some config
      ∧ (∀ identifier record, zone.records.get? identifier = some record →
        ∃ origin plugin, engine.registry.lookup origin.type = some plugin
          ∧ Answers (plugin.normalize config name identifier origin) record)
      ∧ ∀ entry ∈ engine.registry.plugins, Answers (entry.plugin.validateZone name zone) () := by
  rcases stages_of_normalizeZone h with ⟨config, _, _, _, hconfig, -, hrecords, hvalidate, rfl⟩
  refine ⟨config, hconfig, rfl, fun _ _ hr => ?_, fun _ he => validateEach_ok hvalidate he⟩
  rcases normalizeRecords_ok hrecords hr with ⟨origin, plugin, -, hanswer⟩
  exact ⟨origin, plugin, hanswer⟩

/-! ### Records that are refused or left alone -/

theorem answers_of_normalizeRecords {config : Config} {name : String}
    {entries : List (String × Record)} {state after : σ} {records : Table String Record}
    (h : engine.normalizeRecords config name entries state = (.ok records, after))
    {e : String × Record} (he : e ∈ entries) :
    ∃ plugin record, engine.registry.lookup e.2.type = some plugin
      ∧ Answers (plugin.normalize config name e.1 e.2) record := by
  induction entries generalizing state records with
  | nil => cases he
  | cons head rest ih =>
      rcases head with ⟨key, source⟩
      rcases normalizeRecords_cons_ok h with
        ⟨plugin, normalized, between, others, hl, hn, hrest, -⟩
      rcases List.mem_cons.mp he with rfl | he
      · exact ⟨plugin, normalized, hl, state, between, hn⟩
      · exact ih hrest he

/-- No record of a zone that is normalized was refused. -/
theorem answers_of_normalizeZone {name : String} {source zone : Zone} {state after : σ}
    (h : engine.normalizeZone name source state = (.ok zone, after)) {e : String × Record}
    (he : e ∈ source.records.entries) :
    ∃ config plugin record, engine.registry.lookup e.2.type = some plugin
      ∧ Answers (plugin.normalize config name e.1 e.2) record := by
  rcases stages_of_normalizeZone h with ⟨config, _, _, _, -, -, hrecords, -, -⟩
  rcases answers_of_normalizeRecords hrecords he with ⟨plugin, record, hl, hanswer⟩
  exact ⟨config, plugin, record, hl, hanswer⟩

/-- A record is left alone by the plugin for its type, which changes nothing else either. -/
def Leaves (engine : Engine σ) (config : Config) (name : String) (e : String × Record) : Prop :=
  ∃ plugin, engine.registry.lookup e.2.type = some plugin
    ∧ ∀ state, plugin.normalize config name e.1 e.2 state = (.ok e.2, state)

/-- Records that are left alone come out as they went in, before whatever the others come to. -/
theorem normalizeRecords_append_of_leaves {config : Config} {name : String}
    {before : List (String × Record)} (h : ∀ e ∈ before, engine.Leaves config name e)
    (rest : List (String × Record)) (state : σ) :
    engine.normalizeRecords config name (before ++ rest) state
      = ((engine.normalizeRecords config name rest state).1.map fun records =>
          before.foldr (fun e records => records.insert e.1 e.2) records,
        (engine.normalizeRecords config name rest state).2) := by
  induction before with
  | nil =>
      rw [List.nil_append]
      rcases engine.normalizeRecords config name rest state with ⟨result, after⟩
      cases result with
      | error cause => rfl
      | ok records => rfl
  | cons first before ih =>
      rcases h first List.mem_cons_self with ⟨plugin, hl, hleft⟩
      rcases first with ⟨identifier, record⟩
      rw [List.cons_append, normalizeRecords_cons_of_ok hl (hleft state),
        ih fun e he => h e (List.mem_cons_of_mem _ he)]
      rcases engine.normalizeRecords config name rest state with ⟨result, after⟩
      cases result with
      | error cause => rfl
      | ok records => rfl

theorem normalizeRecords_of_leaves {config : Config} {name : String}
    {records : Table String Record} (h : ∀ e ∈ records.entries, engine.Leaves config name e)
    (state : σ) :
    engine.normalizeRecords config name records.entries state = (.ok records, state) := by
  have hall := normalizeRecords_append_of_leaves h [] state
  rw [List.append_nil] at hall
  have hsame : records.entries.foldr (fun e records => records.insert e.1 e.2) Table.empty
      = records := by
    refine Table.ext_get? fun key => ?_
    rw [Table.get?_foldr_insert, Table.get?_empty, Option.or_none]
    rfl
  rw [hall, normalizeRecords, Except.map, hsame]

/-- If all records but one are left alone, what comes out is decided by that one. -/
theorem normalizeRecords_of_leaves_others {config : Config} {name key : String} {record : Record}
    {records : Table String Record} {plugin : Plugin σ} (hkey : records.get? key = some record)
    (hl : engine.registry.lookup record.type = some plugin)
    (h : ∀ e ∈ records.entries, e.1 ≠ key → engine.Leaves config name e) (state : σ) :
    engine.normalizeRecords config name records.entries state
      = (((plugin.normalize config name key record state).1.mapError
            (ZoneError.Cause.normalize key)).map (records.insert key),
        (plugin.normalize config name key record state).2) := by
  rcases Table.exists_entries_eq hkey with ⟨before, later, hentries, hbefore, hlater⟩
  have hmem : ∀ e, e ∈ before ∨ e ∈ later → e ∈ records.entries := by
    intro e he
    rw [hentries, List.mem_append, List.mem_cons]
    exact he.imp_right .inr
  have hfirst : ∀ e ∈ before, engine.Leaves config name e := fun e he =>
    h e (hmem e (.inl he)) (hbefore e he)
  have hlast : ∀ e ∈ later, engine.Leaves config name e := fun e he =>
    h e (hmem e (.inr he)) (hlater e he)
  rw [hentries, normalizeRecords_append_of_leaves hfirst]
  rcases hn : plugin.normalize config name key record state with ⟨result, after⟩
  cases result with
  | error cause =>
      rw [normalizeRecords_cons_of_error hl hn]
      rfl
  | ok normalized =>
      have hrest := normalizeRecords_append_of_leaves hlast [] after
      rw [List.append_nil] at hrest
      rw [normalizeRecords_cons_of_ok hl hn, hrest, normalizeRecords]
      have hsame : before.foldr (fun e records => records.insert e.1 e.2)
          ((later.foldr (fun e records => records.insert e.1 e.2) Table.empty).insert
            key normalized)
          = records.insert key normalized := by
        refine Table.ext_get? fun other => ?_
        have hget : records.get? other = Table.lookup other (before ++ (key, record) :: later) :=
          congrArg (Table.lookup other) hentries
        rw [Table.get?_foldr_insert, Table.get?_insert, Table.get?_insert, Table.get?_foldr_insert,
          hget, Table.lookup_append, Table.lookup]
        by_cases ho : KeyOrder.cmp other key = .eq
        · -- No earlier entry has the key.
          have hnone : Table.lookup other before = none := by
            cases hfound : Table.lookup other before with
            | none => rfl
            | some value =>
                exact absurd (Table.cmp_eq_iff.mp ho) (hbefore _ (Table.mem_of_lookup hfound))
          rw [if_pos ho, if_pos ho, hnone, Option.none_or]
        · rw [if_neg ho, if_neg ho, if_neg ho, Table.get?_empty, Option.or_none]
      simp only [Except.map, Except.mapError, hsame]

/-- A zone whose records need nothing done comes out as it went in, if the plugins are prepared
    for it and accept it. -/
theorem normalizeZone_of_leaves {config : Config} {name : String} {zone : Zone} {state : σ}
    (hconfig : engine.resolveConfig zone.config = .ok config)
    (hconfigure : configureEach config engine.registry.plugins state = (.ok (), state))
    (hrecords : ∀ e ∈ zone.records.entries, engine.Leaves config name e)
    (hvalidate : validateEach name { zone with config := some config } engine.registry.plugins state
      = (.ok (), state)) :
    engine.normalizeZone name zone state = (.ok { zone with config := some config }, state) := by
  simp only [normalizeZone, normalizeInPlace, hconfig, normalizeUnder, hconfigure,
    normalizeRecords_of_leaves hrecords, hvalidate]

end Engine

end DnsZones
