import DnsZones.Normalization
import DnsZones.Proofs.Table

/-!
# Calls to Plugins

Which plugins were called in a run, with what, in which order, and how each call
ended.

Plugins work on a state of any type, so a run can be watched without changing a
single definition: a plugin on a state `σ` becomes one on `σ` with a list of
events beside it, which does what it did and appends what it was asked. An engine
over such plugins runs the very same stages. What has to be shown for each stage
is that the list does not get in the way, so that forgetting it gives back the run
of the plain engine.

A stage makes its calls in a fixed order and gives up at the first that fails. So
a list of events stands in one of two relations to the calls that were planned:
either it completes them, or it breaks off with a failing call. Both relations
hold of a sequence of stages if they hold of its parts.

## Main definitions

* `Call`, `Event`: A question to a plugin, and how it went.
* `Plugin.traced`, `Registry.traced`, `Engine.traced`: The same with a list of events.
* `Completes`, `Breaks`: How events relate to the calls that were planned.

## Theorems

* `Registry.plugins_traced`, `Registry.entry?_traced`: A traced registry finds the
  traced plugins.
* `Completes.append`, `Completes.append_breaks`, `Breaks.append`: Stages in a row.
* `configureEach_traced`, `validateEach_traced`: One call to each of several plugins.
-/

namespace DnsZones

/-- A question to a plugin. -/
inductive Call where
  | version
  | types
  | configure (config : Config)
  | normalize (config : Config) (zone identifier : String) (record : Record)
  | validateZone (name : String) (zone : Zone)
  | render (config : Config) (identifier : String) (record : Record)

/-- A call that was made. -/
structure Event where
  /-- The identity of the plugin. -/
  plugin : Nat
  call : Call
  /-- How the call ended; a normalization that went well ended with a record. -/
  answer : Except PluginError (Option Record)

namespace Event

/-- Who was asked what. -/
def request (event : Event) : Nat × Call := (event.plugin, event.call)

def succeeded (event : Event) : Bool := event.answer.isOk

end Event

/-! ### Watching plugins -/

variable {σ : Type}

/-- An operation that also notes that it was called and how that ended. -/
def noted {α : Type} (plugin : Nat) (call : Call) (record? : α → Option Record)
    (action : Action σ PluginError α) : Action (σ × List Event) PluginError α := fun state =>
  ((action state.1).1,
    (action state.1).2, state.2 ++ [⟨plugin, call, (action state.1).1.map record?⟩])

/-- The plugin with a list of the calls to it. -/
def Plugin.traced (identity : Nat) (plugin : Plugin σ) : Plugin (σ × List Event) where
  version := noted identity .version (fun _ => none) plugin.version
  types := noted identity .types (fun _ => none) plugin.types
  configure config := noted identity (.configure config) (fun _ => none) (plugin.configure config)
  normalize config zone identifier record :=
    noted identity (.normalize config zone identifier record) some
      (plugin.normalize config zone identifier record)
  validateZone name zone :=
    noted identity (.validateZone name zone) (fun _ => none) (plugin.validateZone name zone)
  render config identifier record :=
    noted identity (.render config identifier record) (fun _ => none)
      (plugin.render config identifier record)

def Registered.traced (entry : Registered σ) : Registered (σ × List Event) :=
  ⟨entry.metadata, entry.identity, entry.plugin.traced entry.identity⟩

/-- The registry of the traced plugins. -/
def Registry.traced (registry : Registry σ) : Registry (σ × List Event) where
  entries := registry.entries.mapValues fun _ entry => entry.traced
  nextIdentity := registry.nextIdentity

/-- The engine over the traced plugins. -/
def Engine.traced (engine : Engine σ) : Engine (σ × List Event) :=
  ⟨engine.registry.traced, engine.defaults, engine.workingDirectory⟩

namespace Registry

theorem entry?_traced (registry : Registry σ) (type : RecordType) :
    registry.traced.entry? type = (registry.entry? type).map Registered.traced :=
  Table.get?_mapValues _ _ _

theorem distinct_map_traced (seen : List Nat) (entries : List (Registered σ)) :
    distinct seen (entries.map Registered.traced) = (distinct seen entries).map .traced := by
  induction entries generalizing seen with
  | nil => rfl
  | cons first rest ih =>
      have hidentity : first.traced.identity = first.identity := rfl
      unfold distinct
      rw [List.map_cons]
      simp only [hidentity]
      by_cases hs : seen.contains first.identity = true
      · rw [if_pos hs, if_pos hs, ih]
      · rw [if_neg hs, if_neg hs, List.map_cons, ih]

theorem plugins_traced (registry : Registry σ) :
    registry.traced.plugins = registry.plugins.map Registered.traced := by
  have hvalues : registry.traced.entries.values
      = registry.entries.values.map Registered.traced := by
    unfold traced Table.mapValues Table.values
    rw [List.map_map, List.map_map]
    rfl
  unfold plugins
  rw [hvalues, distinct_map_traced]

/-! ### Every plugin once -/

theorem mem_distinct_iff {seen : List Nat} {entries : List (Registered σ)} {identity : Nat} :
    identity ∈ (distinct seen entries).map (·.identity)
      ↔ identity ∉ seen ∧ identity ∈ entries.map (·.identity) := by
  induction entries generalizing seen with
  | nil => simp only [distinct, List.map_nil, List.not_mem_nil, and_false]
  | cons first rest ih =>
      unfold distinct
      by_cases hs : seen.contains first.identity = true
      -- A plugin that was seen is passed over; a new one is listed and seen from then on.
      · have hm : first.identity ∈ seen := List.contains_iff_mem.mp hs
        rw [if_pos hs, ih, List.map_cons, List.mem_cons]
        refine and_congr_right fun hn => ⟨Or.inr, ?_⟩
        rintro (rfl | h)
        · exact absurd hm hn
        · exact h
      · have hm : first.identity ∉ seen := fun h => hs (List.contains_iff_mem.mpr h)
        rw [if_neg hs, List.map_cons, List.map_cons, List.mem_cons, List.mem_cons, ih,
          List.mem_cons]
        by_cases he : identity = first.identity
        · simp only [he, hm, true_or, not_false_eq_true, and_self]
        · simp only [he, false_or]

theorem nodup_distinct (seen : List Nat) (entries : List (Registered σ)) :
    ((distinct seen entries).map (·.identity)).Nodup := by
  induction entries generalizing seen with
  | nil => exact List.nodup_nil
  | cons first rest ih =>
      unfold distinct
      by_cases hs : seen.contains first.identity = true
      · rw [if_pos hs]
        exact ih seen
      · rw [if_neg hs, List.map_cons, List.nodup_cons]
        -- What is listed after the first plugin was not seen before, and the first one was.
        refine ⟨fun h => ?_, ih _⟩
        exact (mem_distinct_iff.mp h).1 List.mem_cons_self

/-- The plugins of a registry are listed without repetition, and each that is registered for some
    type is among them. -/
theorem plugins_spec (registry : Registry σ) :
    (registry.plugins.map (·.identity)).Nodup
      ∧ ∀ identity, identity ∈ registry.plugins.map (·.identity)
        ↔ ∃ type entry, registry.entry? type = some entry ∧ entry.identity = identity := by
  refine ⟨nodup_distinct _ _, fun identity => ?_⟩
  unfold plugins
  rw [mem_distinct_iff]
  simp only [List.not_mem_nil, not_false_eq_true, true_and]
  unfold Table.values
  rw [List.map_map, List.mem_map]
  constructor
  · rintro ⟨⟨type, entry⟩, hm, he⟩
    exact ⟨type, entry, Table.get?_eq_some_iff.mpr hm, he⟩
  · rintro ⟨type, entry, hm, he⟩
    exact ⟨(type, entry), Table.get?_eq_some_iff.mp hm, he⟩

end Registry

/-! ### Planned calls and calls made -/

/-- The calls that were planned were all made, and went well. -/
structure Completes (plan : List (Nat × Call)) (made : List Event) : Prop where
  requests : made.map Event.request = plan
  succeeded : ∀ event ∈ made, event.succeeded = true

/-- The calls were made as planned, up to one that failed. -/
structure Breaks (plan : List (Nat × Call)) (made : List Event) : Prop where
  requests : made.map Event.request <+: plan
  succeeded : ∀ event ∈ made.dropLast, event.succeeded = true
  failed : ∃ event, made.getLast? = some event ∧ event.succeeded = false

namespace Completes

variable {first second : List (Nat × Call)} {made later : List Event}

theorem nil : Completes [] [] := ⟨rfl, fun _ h => nomatch h⟩

theorem single (event : Event) (h : event.succeeded = true) :
    Completes [event.request] [event] :=
  ⟨rfl, fun _ hm => List.mem_singleton.mp hm ▸ h⟩

theorem append (h : Completes first made) (hl : Completes second later) :
    Completes (first ++ second) (made ++ later) := by
  constructor
  · rw [List.map_append, h.requests, hl.requests]
  · intro event hm
    rcases List.mem_append.mp hm with hm | hm
    · exact h.succeeded event hm
    · exact hl.succeeded event hm

theorem append_breaks (h : Completes first made) (hl : Breaks second later) :
    Breaks (first ++ second) (made ++ later) := by
  rcases hl.failed with ⟨last, hlast, hfailed⟩
  -- The call that failed is a later one, so the last of all calls is the last of these.
  have hne : later ≠ [] := fun he => by
    rw [he] at hlast
    cases hlast
  constructor
  · rw [List.map_append, h.requests]
    exact List.prefix_append_right_inj first |>.mpr hl.requests
  · intro event hm
    rw [List.dropLast_append_of_ne_nil hne] at hm
    rcases List.mem_append.mp hm with hm | hm
    · exact h.succeeded event hm
    · exact hl.succeeded event hm
  · exact ⟨last, by rw [List.getLast?_append_of_ne_nil _ hne, hlast], hfailed⟩

end Completes

namespace Breaks

theorem single (event : Event) (h : event.succeeded = false) : Breaks [event.request] [event] :=
  ⟨List.prefix_rfl, fun _ hm => (List.not_mem_nil hm).elim, event, rfl, h⟩

theorem append {first : List (Nat × Call)} {made : List Event} (h : Breaks first made)
    (second : List (Nat × Call)) : Breaks (first ++ second) made :=
  ⟨h.requests.trans (List.prefix_append _ _), h.succeeded, h.failed⟩

end Breaks

/-- Either way the calls that were made begin those that were planned. -/
theorem requests_isPrefix {plan : List (Nat × Call)} {made : List Event}
    (h : Completes plan made ∨ Breaks plan made) : made.map Event.request <+: plan := by
  rcases h with hcompletes | hbreaks
  · exact hcompletes.requests ▸ List.prefix_rfl
  · exact hbreaks.requests

theorem succeeded_of_mem_dropLast {plan : List (Nat × Call)} {made : List Event}
    (h : Completes plan made ∨ Breaks plan made) {event : Event} (hm : event ∈ made.dropLast) :
    event.succeeded = true := by
  rcases h with hcompletes | hbreaks
  · exact hcompletes.succeeded event (List.dropLast_subset _ hm)
  · exact hbreaks.succeeded event hm

/-! ### One call to each plugin -/

/-- Ask several plugins one after the other, up to the first that fails. -/
def inTurn (describe : Registered σ → PluginError → ZoneError.Cause)
    (ask : Registered σ → Action σ PluginError Unit) :
    List (Registered σ) → Action σ ZoneError.Cause Unit
  | [], state => (.ok (), state)
  | entry :: rest, state =>
    match ask entry state with
    | (.error cause, state) => (.error (describe entry cause), state)
    | (.ok (), state) => inTurn describe ask rest state

theorem configureEach_eq_inTurn (config : Config) (plugins : List (Registered σ)) :
    Engine.configureEach config plugins
      = inTurn (fun entry => .configure entry.metadata.name)
          (fun entry => entry.plugin.configure config) plugins := by
  induction plugins with
  | nil => rfl
  | cons first rest ih =>
      funext state
      rcases hc : first.plugin.configure config state with ⟨result, after⟩
      cases result with
      | error cause => simp only [Engine.configureEach, inTurn, hc]
      | ok _ => simp only [Engine.configureEach, inTurn, hc, ih]

theorem validateEach_eq_inTurn (name : String) (zone : Zone) (plugins : List (Registered σ)) :
    Engine.validateEach name zone plugins
      = inTurn (fun entry => .validate entry.metadata.name)
          (fun entry => entry.plugin.validateZone name zone) plugins := by
  induction plugins with
  | nil => rfl
  | cons first rest ih =>
      funext state
      rcases hv : first.plugin.validateZone name zone state with ⟨result, after⟩
      cases result with
      | error cause => simp only [Engine.validateEach, inTurn, hv]
      | ok _ => simp only [Engine.validateEach, inTurn, hv, ih]

/-- Asking traced plugins in turn gives what asking the plain ones does, and the events of the one
    call to each: all of them if nothing fails, and else those up to the call that fails. -/
theorem inTurn_traced {describe : Registered σ → PluginError → ZoneError.Cause}
    {ask : Registered σ → Action σ PluginError Unit}
    {describe' : Registered (σ × List Event) → PluginError → ZoneError.Cause}
    {ask' : Registered (σ × List Event) → Action (σ × List Event) PluginError Unit} {call : Call}
    (hdescribe : ∀ entry, describe' entry.traced = describe entry)
    (hask : ∀ entry, ask' entry.traced = noted entry.identity call (fun _ => none) (ask entry))
    {plugins : List (Registered σ)} {state after : σ} {result : Except ZoneError.Cause Unit}
    (hrun : inTurn describe ask plugins state = (result, after)) (events : List Event) :
    ∃ made, inTurn describe' ask' (plugins.map .traced) (state, events)
        = (result, after, events ++ made)
      ∧ ((result = .ok () ∧ Completes (plugins.map fun entry => (entry.identity, call)) made)
        ∨ ((∃ cause, result = .error cause)
          ∧ Breaks (plugins.map fun entry => (entry.identity, call)) made)) := by
  induction plugins generalizing state events with
  | nil =>
      cases hrun
      exact ⟨[], by rw [List.append_nil]; rfl, Or.inl ⟨rfl, Completes.nil⟩⟩
  | cons first rest ih =>
      simp only [inTurn] at hrun
      rcases ha : ask first state with ⟨answer, between⟩
      cases answer with
      | error cause =>
          rw [ha] at hrun
          cases hrun
          refine ⟨[⟨first.identity, call, .error cause⟩], ?_, Or.inr ⟨⟨_, rfl⟩, ?_⟩⟩
          · simp only [List.map_cons, inTurn, hask, hdescribe, noted, ha, Except.map]
          · exact (Breaks.single ⟨first.identity, call, .error cause⟩ rfl).append _
      | ok _ =>
          simp only [ha] at hrun
          -- The call is one event, and the rest is asked in the state after it.
          rcases ih hrun (events ++ [⟨first.identity, call, .ok none⟩]) with ⟨made, hmade, hends⟩
          have hone := Completes.single ⟨first.identity, call, .ok none⟩ rfl
          refine ⟨⟨first.identity, call, .ok none⟩ :: made, ?_, ?_⟩
          · simp only [List.map_cons, inTurn, hask, noted, ha, Except.map, hmade,
              List.append_assoc, List.singleton_append]
          · rcases hends with ⟨hok, hcompletes⟩ | ⟨hfail, hbreaks⟩
            · exact Or.inl ⟨hok, hone.append hcompletes⟩
            · exact Or.inr ⟨hfail, hone.append_breaks hbreaks⟩

theorem configureEach_traced {config : Config} {plugins : List (Registered σ)} {state after : σ}
    {result : Except ZoneError.Cause Unit}
    (hrun : Engine.configureEach config plugins state = (result, after)) (events : List Event) :
    ∃ made, Engine.configureEach config (plugins.map .traced) (state, events)
        = (result, after, events ++ made)
      ∧ ((result = .ok ()
          ∧ Completes (plugins.map fun entry => (entry.identity, .configure config)) made)
        ∨ ((∃ cause, result = .error cause)
          ∧ Breaks (plugins.map fun entry => (entry.identity, .configure config)) made)) := by
  rw [configureEach_eq_inTurn] at hrun ⊢
  exact inTurn_traced (fun _ => rfl) (fun _ => rfl) hrun events

theorem validateEach_traced {name : String} {zone : Zone} {plugins : List (Registered σ)}
    {state after : σ} {result : Except ZoneError.Cause Unit}
    (hrun : Engine.validateEach name zone plugins state = (result, after)) (events : List Event) :
    ∃ made, Engine.validateEach name zone (plugins.map .traced) (state, events)
        = (result, after, events ++ made)
      ∧ ((result = .ok ()
          ∧ Completes (plugins.map fun entry => (entry.identity, .validateZone name zone)) made)
        ∨ ((∃ cause, result = .error cause)
          ∧ Breaks (plugins.map fun entry => (entry.identity, .validateZone name zone)) made)) := by
  rw [validateEach_eq_inTurn] at hrun ⊢
  exact inTurn_traced (fun _ => rfl) (fun _ => rfl) hrun events

end DnsZones
