import DnsZones.Proofs.Builtin.Records
import DnsZones.Proofs.Path
import DnsZones.Proofs.Zone

/-!
# Zones under the Builtin Plugins

What the builtin plugins guarantee of a zone, and that they can write it.

The checks of a whole zone come after all of its records are normalized, so they
look at records whose shape is known. Writing comes later still, and on its own:
it looks up the plugin of every record again and settles the configuration again.
That this cannot fail is seen from the zone alone. The types that normalization
let through are those with a builtin plugin, and a configuration that was settled
once stays settled.

## Main definitions

* `Builtin.ZoneIsSound`: What is guaranteed of a zone.
* `Builtin.checkZone`: The checks of a whole zone.
* `Builtin.IsWritable`: What writing a zone takes.
* `Builtin.fileText`: What is written.

## Theorems

* `Builtin.validateAuthority_ok`, `Builtin.validateReferences_ok`: What the checks establish.
* `Builtin.validateEach_eq`: They are all that the builtin plugins check.
* `Builtin.zoneIsSound_of_normalizeZone`: A normalized zone is sound.
* `Builtin.render_eq`: A zone that can be written is, on every host.
-/

namespace DnsZones

namespace Builtin

/-- What the builtin plugins guarantee of a zone that they normalized. -/
structure ZoneIsSound (name : String) (zone : Zone) : Prop where
  /-- Every record has the shape of its type. -/
  records : ∀ identifier record, zone.records.get? identifier = some record → RecordIsSound record
  /-- There is exactly one start of authority. -/
  authority : ∃ identifier record, zone.recordsOf .soa = [(identifier, record)]
  /-- Every canonical name is, when both are absolute and in lower case, the name of an address
      record of the zone. -/
  references : ∀ identifier record value, zone.records.get? identifier = some record →
    record.type = .cname → record.data = .single value →
    ∃ other address, zone.records.get? other = some address ∧ address.type = .a
      ∧ Text.lower (Name.qualify value.text name) = Text.lower (Name.qualify address.name name)

/-- What writing a zone takes: a configuration whose serial directory has a path, and only types
    with a builtin plugin. -/
structure IsWritable (zone : Zone) : Prop where
  /-- There is a configuration, and its serial directory is not the empty path. -/
  config : ∃ config, zone.config = some config ∧ config.serialDirectory.text ≠ ""
  /-- Every record has a type with a builtin plugin. -/
  types : ∀ e ∈ zone.records.entries, e.2.type ∈ [RecordType.a, .ns, .cname, .ptr, .soa]

/-- A zone that passes the check of its start of authority has exactly one. -/
theorem validateAuthority_ok {name : String} {zone : Zone}
    (h : validateAuthority name zone = .ok ()) :
    ∃ identifier record, zone.recordsOf .soa = [(identifier, record)] := by
  rw [validateAuthority] at h
  cases hr : zone.recordsOf .soa with
  | nil =>
      rw [hr] at h
      cases h
  | cons first rest =>
      cases rest with
      | nil => exact ⟨first.1, first.2, rfl⟩
      | cons second rest =>
          rw [hr] at h
          cases h

theorem validateReferences_ok {name : String} {zone : Zone}
    (h : validateReferences name zone = .ok ()) {identifier : String} {record : Record}
    {value : Value} (hr : zone.records.get? identifier = some record) (ht : record.type = .cname)
    (hd : record.data = .single value) :
    ∃ other address, zone.records.get? other = some address ∧ address.type = .a
      ∧ Text.lower (Name.qualify value.text name)
        = Text.lower (Name.qualify address.name name) := by
  -- The check passes only if it finds no canonical name without an address.
  have hnone : dangling name zone = [] := by
    cases hz : dangling name zone with
    | nil => rfl
    | cons first rest =>
        rw [validateReferences, hz] at h
        cases h
  rw [dangling, List.filterMap_eq_nil_iff] at hnone
  have hfound := hnone _ (Zone.mem_recordsOf_iff.mpr ⟨hr, ht⟩)
  simp only [Record.single?, hd, ite_eq_left_iff, reduceCtorEq, imp_false, not_not,
    List.contains_iff_mem] at hfound
  rcases List.mem_map.mp hfound with ⟨⟨other, address⟩, hm, he⟩
  rcases Zone.mem_recordsOf_iff.mp hm with ⟨haddress, htype⟩
  exact ⟨other, address, haddress, htype, he.symm⟩

/-- The checks of a whole zone that the builtin plugins make, in the order of their types. -/
def checkZone (name : String) (zone : Zone) : Except ZoneError.Cause Unit :=
  match validateReferences name zone with
  | .error cause => .error (.validate "cname" cause)
  | .ok () =>
    match validateAuthority name zone with
    | .error cause => .error (.validate "soa" cause)
    | .ok () => .ok ()

theorem validateEach_eq (timeout : Duration) (name : String) (zone : Zone) (host : Host) :
    Engine.validateEach name zone (registry timeout).plugins host
      = (checkZone name zone, host) := by
  simp only [plugins_registry, Engine.validateEach, entry, address, canonicalName, nameServer,
    pointer, authority, Plugin.stateless, validateNothing, checkZone]
  cases validateReferences name zone with
  | error cause => rfl
  | ok _ =>
      cases validateAuthority name zone with
      | error cause => rfl
      | ok _ => rfl

theorem zoneIsSound_of_normalizeZone {timeout : Duration} {defaults : Option Config}
    {start state after : Host} {name : String} {source zone : Zone}
    (h : (engine timeout defaults start).normalizeZone name source state = (.ok zone, after)) :
    ZoneIsSound name zone := by
  rcases Engine.normalizeZone_ok h with ⟨config, -, -, hrecords, hplugins⟩
  constructor
  · intro identifier record hr
    rcases hrecords identifier record hr with ⟨origin, plugin, hl, hanswer⟩
    exact recordIsSound_of_answers hl hanswer
  · -- The plugins for these two types check more than their own records.
    have hm : entry 4 "soa" (authority timeout)
        ∈ (engine timeout defaults start).registry.plugins := by
      simp only [engine, plugins_registry, List.mem_cons, true_or, or_true]
    rcases hplugins _ hm with ⟨before, between, hv⟩
    exact validateAuthority_ok (congrArg Prod.fst hv)
  · intro identifier record value hr ht hd
    have hm : entry 2 "cname" canonicalName
        ∈ (engine timeout defaults start).registry.plugins := by
      simp only [engine, plugins_registry, List.mem_cons, true_or, or_true]
    rcases hplugins _ hm with ⟨before, between, hv⟩
    exact validateReferences_ok (congrArg Prod.fst hv) hr ht hd

/-! ### Writing -/

theorem isAbsolute_workingPath (store : Store) : store.workingPath.isAbsolute = true := by
  cases hw : store.workingDirectory with
  | nil =>
      rw [Store.workingPath, hw]
      rfl
  | cons first rest =>
      simp only [Store.workingPath, hw, List.isEmpty_cons, Bool.false_eq_true, if_false,
        List.map_cons, String.join_cons, Path.isAbsolute, String.toList_append]
      rfl

/-- The serial directory of a settled configuration has an absolute path. -/
theorem isAbsolute_of_resolveConfig {timeout : Duration} {defaults own : Option Config}
    {start : Host} {config : Config}
    (h : (engine timeout defaults start).resolveConfig own = .ok config) :
    config.serialDirectory.isAbsolute = true := by
  simp only [Engine.resolveConfig] at h
  cases hown : own.or defaults with
  | none =>
      simp only [engine, hown] at h
      cases h
  | some given =>
      simp only [engine, hown, Config.absolute] at h
      by_cases hempty : given.serialDirectory.text.isEmpty = true
      · rw [if_pos hempty] at h
        cases h
      · rw [if_neg hempty] at h
        cases h
        exact Path.isAbsolute_absolute (isAbsolute_workingPath start.store) _

theorem serialDirectory_of_resolveConfig {timeout : Duration} {defaults own : Option Config}
    {start : Host} {config : Config}
    (h : (engine timeout defaults start).resolveConfig own = .ok config) :
    config.serialDirectory.text ≠ "" :=
  Path.text_ne_of_isAbsolute (isAbsolute_of_resolveConfig h)

/-- A configuration whose serial directory has an absolute path is settled, wherever the host is. -/
theorem resolveConfig_of_isAbsolute {timeout : Duration} {defaults : Option Config} {start : Host}
    {config : Config} (h : config.serialDirectory.isAbsolute = true) :
    (engine timeout defaults start).resolveConfig (some config) = .ok config := by
  have hempty : ¬config.serialDirectory.text.isEmpty = true := by
    rw [String.isEmpty_iff]
    exact Path.text_ne_of_isAbsolute h
  simp only [Engine.resolveConfig, Option.some_or, Config.absolute, if_neg hempty, Path.absolute,
    h, if_true]

/-- A settled configuration settles to itself. -/
theorem resolveConfig_settled {timeout : Duration} {defaults own : Option Config} {start : Host}
    {config : Config} (h : (engine timeout defaults start).resolveConfig own = .ok config) :
    (engine timeout defaults start).resolveConfig (some config) = .ok config :=
  resolveConfig_of_isAbsolute (isAbsolute_of_resolveConfig h)

theorem isWritable_of_normalizeZone {timeout : Duration} {defaults : Option Config}
    {start state after : Host} {name : String} {source zone : Zone}
    (h : (engine timeout defaults start).normalizeZone name source state = (.ok zone, after)) :
    IsWritable zone := by
  rcases Engine.normalizeZone_ok h with ⟨config, hconfig, hzone, -, -⟩
  refine ⟨⟨config, hzone, serialDirectory_of_resolveConfig hconfig⟩, fun e he => ?_⟩
  exact ((zoneIsSound_of_normalizeZone h).records e.1 e.2 (Table.get?_eq_some_iff.mpr he)).type

/-- The text of a zone file: the heading, then the records in identifier order. -/
def fileText (name : String) (zone : Zone) : String :=
  zone.records.entries.foldl (fun before e => before ++ Engine.entry (Layout.record e.2))
    (Engine.heading name zone)

theorem configureEach_plugins (timeout : Duration) (config : Config) (host : Host) :
    Engine.configureEach config (registry timeout).plugins host = (.ok (), host) := rfl

/-- The plugin for one of the five types writes records in the usual layout. -/
theorem exists_lookup_of_type (timeout : Duration) {type : RecordType}
    (h : type ∈ [RecordType.a, .ns, .cname, .ptr, .soa]) :
    ∃ plugin, (registry timeout).lookup type = some plugin
      ∧ ∀ config identifier record host,
        plugin.render config identifier record host = (.ok (Layout.record record), host) := by
  simp only [List.mem_cons, List.not_mem_nil, or_false] at h
  rcases h with rfl | rfl | rfl | rfl | rfl
  · exact ⟨address, rfl, fun _ _ _ _ => rfl⟩
  · exact ⟨nameServer, rfl, fun _ _ _ _ => rfl⟩
  · exact ⟨canonicalName, rfl, fun _ _ _ _ => rfl⟩
  · exact ⟨pointer, rfl, fun _ _ _ _ => rfl⟩
  · exact ⟨authority timeout, rfl, fun _ _ _ _ => rfl⟩

/-- Records of the five types are written one after the other, and nothing changes. -/
theorem renderRecords_eq {timeout : Duration} {defaults : Option Config} {start : Host}
    (config : Config) (before : String) {entries : List (String × Record)}
    (h : ∀ e ∈ entries, e.2.type ∈ [RecordType.a, .ns, .cname, .ptr, .soa]) (host : Host) :
    (engine timeout defaults start).renderRecords config before entries host
      = (.ok (entries.foldl (fun before e => before ++ Engine.entry (Layout.record e.2)) before),
        host) := by
  induction entries generalizing before with
  | nil => rfl
  | cons head rest ih =>
      rcases head with ⟨identifier, record⟩
      rcases exists_lookup_of_type timeout (h _ List.mem_cons_self) with ⟨plugin, hl, hrender⟩
      have hl' : (engine timeout defaults start).registry.lookup record.type = some plugin := hl
      simp only [Engine.renderRecords, hl', hrender, List.foldl_cons]
      exact ih _ fun e he => h e (List.mem_cons_of_mem _ he)

/-- A zone that can be written is, on every host, and writing it changes nothing there. -/
theorem render_eq {timeout : Duration} {defaults : Option Config} {start : Host} {zone : Zone}
    (h : IsWritable zone) (name : String) (host : Host) :
    (engine timeout defaults start).render name zone host = (.ok (fileText name zone), host) := by
  rcases h.config with ⟨config, hconfig, htext⟩
  have hempty : ¬config.serialDirectory.text.isEmpty = true := by
    rw [String.isEmpty_iff]
    exact htext
  -- The configuration was absolute already, and the builtin plugins take any.
  have hconfigure : ∀ settled, Engine.configureEach settled
      (engine timeout defaults start).registry.plugins host = (.ok (), host) := fun settled =>
    configureEach_plugins timeout settled host
  simp only [Engine.render, Engine.resolveConfig, hconfig, Option.some_or, Config.absolute,
    if_neg hempty, Engine.renderUnder, hconfigure, renderRecords_eq _ _ h.types]
  rfl

end Builtin

end DnsZones
