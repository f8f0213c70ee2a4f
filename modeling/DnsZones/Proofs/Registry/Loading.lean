import DnsZones.Proofs.Registry.Candidates
import DnsZones.Proofs.Registry.Entries
import DnsZones.Proofs.Registry.Introduction

/-!
# Loading Plugins

What a registry holds after the plugins in a directory were loaded, or the loading was
ended by one of them.

Loading many plugins is a sequence of overriding registrations up to the first plugin
that fails, so that a type ends up with the last plugin that declares it. Since the names
are sorted before anything is started, nothing of the order in which the directory was
listed is left by then.

One thing does depend on the listing. If there are several names that denote nothing
then the loading fails in any case and registers nothing, but the system's reason is
that of the name that came first.

## Main definitions

* `Discovery.ComesFrom`: Where a type's entry comes from.
* `Discovery.IsAfter`: What the host and the registry hold after some plugins were loaded.
* `Discovery.Outcome`: How loading the plugins of a directory ends.
* `Discovery.AgreesUpToCause`: Two outcomes are the same but for the system's reason.

## Theorems

* `Discovery.ComesFrom.cons`, `Discovery.ComesFrom.unique`: The entry is determined, plugin by
  plugin.
* `Discovery.exists_after_of_areIntroduced`: Plugins that tell what they should are all loaded.
* `Discovery.outcome_of_areExaminable`, `Discovery.outcome_loadListed`: How loading ends.
* `Discovery.loadListed_by_name`: Overrides are resolved by file name.
* `Discovery.loadListed_reverse_astray`: What still depends on the listing.
-/

namespace DnsZones

namespace Discovery

variable {store : Store} {directory : Path} {path : Path} {type : RecordType}

/-! ### Many plugins -/

/-- Where the entry of a type comes from after plugins were loaded in order: from the last that
    told the type, under the identity and the number that it got, or from before. -/
inductive ComesFrom (told : List Introduced) (identity started : Nat)
    (previous : Option (Registered Host)) (type : RecordType) : Option (Registered Host) → Prop
  | last {before later : List Introduced} {plugin : Introduced}
      (htold : told = before ++ plugin :: later) (hdeclares : type ∈ plugin.types)
      (hlater : ∀ other ∈ later, type ∉ other.types) :
      ComesFrom told identity started previous type
        (some ⟨.ofExecutable plugin.path, identity + before.length,
          External.plugin (started + before.length) plugin.version⟩)
  | previous (hnone : ∀ plugin ∈ told, type ∉ plugin.types) :
      ComesFrom told identity started previous type previous

/-- Every plugin told what it tells on its own. -/
def AreIntroduced (store : Store) (told : List Introduced) : Prop :=
  ∀ plugin ∈ told, introduce store plugin.path = .ok plugin

/-- What the host and the registry hold after some plugins were loaded. -/
structure IsAfter (start : Loading) (told : List Introduced) (after : Loading) : Prop where
  store : after.host.store = start.host.store
  /-- The programs that were started last are theirs. -/
  running : after.host.processes = start.host.processes ++ told.map (·.process)
  /-- Every type has its entry from the last plugin that told it. -/
  entries : ∀ type, ComesFrom told start.registry.nextIdentity start.host.processes.length
    (start.registry.entry? type) type (after.registry.entry? type)

/-- What comes from a later plugin still does with a plugin in front, and what comes from before
    comes from that plugin if it told the type. -/
theorem ComesFrom.cons {told : List Introduced} {identity started : Nat}
    {previous entry : Option (Registered Host)} {plugin : Introduced}
    (h : ComesFrom told (identity + 1) (started + 1)
      (if type ∈ plugin.types
        then some ⟨.ofExecutable plugin.path, identity, External.plugin started plugin.version⟩
        else previous) type entry) :
    ComesFrom (plugin :: told) identity started previous type entry := by
  cases h with
  | @last before later other htold hdeclares hlater =>
      have hlast : ComesFrom (plugin :: told) identity started previous type
          (some ⟨.ofExecutable other.path, identity + (plugin :: before).length,
            External.plugin (started + (plugin :: before).length) other.version⟩) :=
        .last (congrArg (plugin :: ·) htold) hdeclares hlater
      simp only [List.length_cons, ← Nat.add_assoc, Nat.add_right_comm _ before.length 1] at hlast
      exact hlast
  | previous hnone =>
      by_cases hdeclares : type ∈ plugin.types
      · rw [if_pos hdeclares]
        exact .last (List.nil_append (plugin :: told)).symm hdeclares hnone
      · rw [if_neg hdeclares]
        refine .previous fun other ho => ?_
        rcases List.mem_cons.mp ho with rfl | ho
        · exact hdeclares
        · exact hnone other ho

/-- There is one such entry. -/
theorem ComesFrom.unique {told : List Introduced} {identity started : Nat}
    {previous entry other : Option (Registered Host)}
    (h : ComesFrom told identity started previous type entry)
    (hother : ComesFrom told identity started previous type other) : entry = other := by
  cases h with
  | @last before later plugin htold hdeclares hlater =>
      cases hother with
      | @last before' later' plugin' htold' hdeclares' hlater' =>
          -- Neither of the two plugins is after the other.
          rcases List.append_eq_append_iff.mp (htold.symm.trans htold') with
            ⟨between, rfl, heq⟩ | ⟨between, rfl, heq⟩
          · cases between with
            | nil =>
                cases heq
                rw [List.append_nil]
            | cons first between =>
                cases heq
                exact absurd hdeclares' (hlater _ (List.mem_append_right _ List.mem_cons_self))
          · cases between with
            | nil =>
                cases heq
                rw [List.append_nil]
            | cons first between =>
                cases heq
                exact absurd hdeclares (hlater' _ (List.mem_append_right _ List.mem_cons_self))
      | previous hnone =>
          exact absurd hdeclares (hnone plugin
            (htold ▸ List.mem_append_right _ List.mem_cons_self))
  | previous hnone =>
      cases hother with
      | @last before later plugin htold hdeclares hlater =>
          exact absurd hdeclares (hnone plugin
            (htold ▸ List.mem_append_right _ List.mem_cons_self))
      | previous => rfl

theorem loadEach_cons_of_ok {loading after : Loading} {paths : List Path}
    (h : loadOne loading path = (.ok (), after)) :
    loadEach loading (path :: paths) = loadEach after paths := by
  rw [loadEach, h]

theorem loadEach_cons_of_error {loading after : Loading} {paths : List Path} {error : LoadError}
    (h : loadOne loading path = (.error error, after)) :
    loadEach loading (path :: paths) = (.error error, after) := by
  rw [loadEach, h]

theorem loadEach_append {loading after : Loading} {before : List Path} (later : List Path)
    (h : loadEach loading before = (.ok (), after)) :
    loadEach loading (before ++ later) = loadEach after later := by
  induction before generalizing loading with
  | nil =>
      cases h
      rfl
  | cons path before ih =>
      rcases hone : loadOne loading path with ⟨error | _, next⟩
      · rw [loadEach_cons_of_error hone] at h
        cases h
      · rw [loadEach_cons_of_ok hone] at h
        rw [List.cons_append, loadEach_cons_of_ok hone]
        exact ih h

/-- Plugins that tell what they should are all loaded. -/
theorem exists_after_of_areIntroduced {told : List Introduced} (start : Loading)
    (h : AreIntroduced start.host.store told) :
    ∃ after, loadEach start (told.map (·.path)) = (.ok (), after) ∧ IsAfter start told after := by
  induction told generalizing start with
  | nil => exact ⟨start, rfl, rfl, (List.append_nil _).symm, fun type => .previous nofun⟩
  | cons plugin told ih =>
      have hone := loadOne_eq start plugin.path
      rw [h plugin List.mem_cons_self] at hone
      obtain ⟨next, hone, hregistry, hstore, hrunning⟩ : ∃ next,
          loadOne start plugin.path = (.ok (), next)
          ∧ next.registry = (start.registry.adopt (.ofExecutable plugin.path)
            (External.plugin start.host.processes.length plugin.version) plugin.types).1
          ∧ next.host.store = start.host.store
          ∧ next.host.processes = start.host.processes ++ [plugin.process] := by
        rcases hone with ⟨journal, notices, hone⟩
        exact ⟨_, hone, rfl, rfl, rfl⟩
      rcases ih next fun other ho => hstore ▸ h other (List.mem_cons_of_mem _ ho) with
        ⟨after, hlater, hafter⟩
      refine ⟨after, (loadEach_cons_of_ok hone).trans hlater, hafter.store.trans hstore, ?_,
        fun type => ?_⟩
      · rw [hafter.running, hrunning, List.append_assoc]
        rfl
      · have hentry := hafter.entries type
        rw [hregistry, hrunning, Registry.entry?_adopt, Registry.nextIdentity_adopt,
          List.length_append] at hentry
        exact hentry.cons

/-- Of a list of paths those up to the first plugin that fails are told. -/
theorem exists_told (store : Store) (paths : List Path) :
    ∃ told rest, paths = told.map (·.path) ++ rest ∧ AreIntroduced store told
      ∧ (rest = [] ∨ ∃ path later error, rest = path :: later
        ∧ introduce store path = .error error) := by
  induction paths with
  | nil => exact ⟨[], [], rfl, nofun, .inl rfl⟩
  | cons path paths ih =>
      cases hintroduce : introduce store path with
      | error error =>
          exact ⟨[], path :: paths, rfl, nofun, .inr ⟨path, paths, error, rfl, hintroduce⟩⟩
      | ok plugin =>
          rcases ih with ⟨told, rest, rfl, htold, hrest⟩
          have hpath := path_of_introduce hintroduce
          refine ⟨plugin :: told, rest, by rw [List.map_cons, hpath, List.cons_append],
            fun other ho => ?_, hrest⟩
          rcases List.mem_cons.mp ho with rfl | ho
          · rw [hpath]
            exact hintroduce
          · exact htold other ho

/-! ### A directory -/

/-- How loading the plugins of a directory ends, with nothing said of the order in which it was
    listed. -/
inductive Outcome (registry : Registry Host) (host : Host) (directory : Path) :
    Except LoadError Unit × Loading → Prop
  /-- There is no such directory, and nothing is loaded. -/
  | missing (hlisting : listing host.store directory = .error .notFound) :
      Outcome registry host directory (.ok (), ⟨registry, host, []⟩)
  /-- The directory cannot be read. -/
  | unreadable {cause : SystemError} (hlisting : listing host.store directory = .error cause)
      (hother : cause ≠ .notFound) :
      Outcome registry host directory (.error (.discover directory cause), ⟨registry, host, []⟩)
  /-- A name in the directory denotes nothing. -/
  | unexaminable {names : List String} {name : String} {cause : SystemError}
      {notices : List Notice} (hlisting : listing host.store directory = .ok names)
      (hname : name ∈ names) (hstatus : host.store.status (directory.join name) = .error cause) :
      Outcome registry host directory
        (.error (.discover directory cause), ⟨registry, host, notices⟩)
  /-- All plugins are loaded, in the order of their names. -/
  | finished {names plugins : List String} {told : List Introduced} {notices : List Notice}
      {after : Loading} (hlisting : listing host.store directory = .ok names)
      (hselection : IsSelection host.store directory names plugins)
      (hpaths : plugins.map directory.join = told.map (·.path))
      (htold : AreIntroduced host.store told)
      (hafter : IsAfter ⟨registry, host, notices⟩ told after) :
      Outcome registry host directory (.ok (), after)
  /-- A plugin fails, and what was loaded is what the plugins before it told. -/
  | stopped {names plugins : List String} {told : List Introduced} {path : Path}
      {later : List Path} {error : LoadError} {notices : List Notice} {loaded after : Loading}
      (hlisting : listing host.store directory = .ok names)
      (hselection : IsSelection host.store directory names plugins)
      (hpaths : plugins.map directory.join = told.map (·.path) ++ path :: later)
      (htold : AreIntroduced host.store told) (herror : introduce host.store path = .error error)
      (hloaded : loadEach ⟨registry, host, notices⟩ (told.map (·.path)) = (.ok (), loaded))
      (hafter : IsAfter ⟨registry, host, notices⟩ told loaded)
      (hregistry : after.registry = loaded.registry)
      (hrunning : loaded.host.processes <+: after.host.processes) :
      Outcome registry host directory (.error error, after)

/-- Two outcomes are the same, but that a directory in which not every name denotes something
    may be refused for different reasons. -/
def AgreesUpToCause (directory : Path) (a b : Except LoadError Unit × Loading) : Prop :=
  a = b ∨ ∃ cause other, a.1 = .error (.discover directory cause)
    ∧ b.1 = .error (.discover directory other)
    ∧ a.2.registry = b.2.registry ∧ a.2.host = b.2.host

/-- A name that denotes nothing ends the loading before it has begun. -/
theorem loadListed_of_not (registry : Registry Host) {host : Host} {names : List String}
    (h : ¬AreExaminable host.store directory names) :
    ∃ name ∈ names, ∃ cause notices, host.store.status (directory.join name) = .error cause
      ∧ loadListed registry host directory (.ok names)
        = (.error (.discover directory cause), ⟨registry, host, notices⟩) := by
  rcases select_of_not h with ⟨name, hm, cause, notices, hstatus, hselect⟩
  refine ⟨name, hm, cause, notices, hstatus, ?_⟩
  rw [loadListed, hselect]

/-- If every name denotes something then the plugins among them are loaded up to the first that
    fails. -/
theorem outcome_of_areExaminable (registry : Registry Host) {host : Host} {names : List String}
    (hlisting : listing host.store directory = .ok names)
    (h : AreExaminable host.store directory names) :
    Outcome registry host directory (loadListed registry host directory (.ok names)) := by
  rcases exists_selection (nodup_of_listing hlisting) h with
    ⟨plugins, notices, hselection, hselect⟩
  rcases exists_told host.store (plugins.map directory.join) with
    ⟨told, rest, hpaths, htold, hrest⟩
  rcases exists_after_of_areIntroduced ⟨registry, host, notices⟩ htold with
    ⟨loaded, hloaded, hafter⟩
  rw [loadListed, hselect, hpaths]
  simp only [loadEach_append rest hloaded]
  rcases hrest with rfl | ⟨path, later, error, rfl, herror⟩
  · rw [List.append_nil] at hpaths
    exact .finished hlisting hselection hpaths htold hafter
  · have hone := loadOne_eq loaded path
    rw [hafter.store, herror] at hone
    rcases hone with ⟨stopped, hone, hrunning⟩
    rw [loadEach_cons_of_error hone]
    exact .stopped hlisting hselection hpaths htold herror hloaded hafter rfl hrunning

/-- If every name denotes something then the order in which they come makes no difference. -/
theorem loadListed_perm (registry : Registry Host) {host : Host} {names others : List String}
    (hp : names.Perm others) (h : AreExaminable host.store directory names) :
    loadListed registry host directory (.ok names)
      = loadListed registry host directory (.ok others) := by
  rw [loadListed, loadListed, select_perm hp h]

/-- Loading ends in one of these ways, also if the names come in another order than they do in
    the directory. -/
theorem outcome_loadListed {order : List String → List String}
    (horder : ∀ names, (order names).Perm names) (registry : Registry Host) (host : Host)
    (directory : Path) :
    Outcome registry host directory
      (loadListed registry host directory ((listing host.store directory).map order)) := by
  cases hlisting : listing host.store directory with
  | error cause =>
      by_cases hmissing : cause = .notFound
      · subst hmissing
        exact .missing hlisting
      · rw [Except.map, loadListed, select_of_error hmissing]
        exact .unreadable hlisting hmissing
  | ok names =>
      have hperm := horder names
      rw [Except.map]
      by_cases hexaminable : AreExaminable host.store directory (order names)
      · rw [loadListed_perm registry hperm hexaminable]
        exact outcome_of_areExaminable registry hlisting fun name hm =>
          hexaminable name (hperm.mem_iff.mpr hm)
      · rcases loadListed_of_not registry hexaminable with
          ⟨name, hname, cause, notices, hstatus, hload⟩
        rw [hload]
        exact .unexaminable hlisting (hperm.mem_iff.mp hname) hstatus

/-- **Overrides are resolved by file name.** In whatever order the names in a directory are
    listed, the host and the registry come to hold the same, and the loading ends in the same
    way. If it succeeds then every type has the last plugin, in the order of the bytes of the file
    names, that declares the type, or what it had if none does. If a plugin fails then the
    registry is the one to which the plugins before it have led. -/
theorem loadListed_by_name {order : List String → List String}
    (horder : ∀ names, (order names).Perm names) (registry : Registry Host) (host : Host)
    (directory : Path) :
    Outcome registry host directory
        (loadListed registry host directory ((listing host.store directory).map order))
      ∧ AgreesUpToCause directory
        (loadListed registry host directory ((listing host.store directory).map order))
        (load registry host directory) := by
  refine ⟨outcome_loadListed horder registry host directory, ?_⟩
  unfold load
  cases hlisting : listing host.store directory with
  | error cause => exact .inl rfl
  | ok names =>
      have hperm := horder names
      by_cases hexaminable : AreExaminable host.store directory (order names)
      · exact .inl (loadListed_perm registry hperm hexaminable)
      · have hnames : ¬AreExaminable host.store directory names := fun h =>
          hexaminable fun name hm => h name (hperm.mem_iff.mp hm)
        rcases loadListed_of_not registry hexaminable with ⟨-, -, cause, notices, -, hload⟩
        rcases loadListed_of_not registry hnames with ⟨-, -, other, skipped, -, hother⟩
        rw [Except.map, hload, hother]
        exact .inr ⟨cause, other, rfl, rfl, rfl, rfl⟩

/-- A program that answers with its version and with the types that it declares. -/
def answering (version : String) (tags : List String) : Program :=
  .answers [⟨Channel.frame (Response.version protocolVersion version).toJson.write.toUTF8, false⟩,
    ⟨Channel.frame (declaration tags), false⟩]

theorem introduce_answering {version : String} {tags : List String}
    (hprogram : store.programAt path = .ok (answering version tags))
    (hversion : (Response.version protocolVersion version).toJson.write.toUTF8.size
      ≤ maxMessageSize)
    (htags : (declaration tags).size ≤ maxMessageSize) :
    ∃ process, introduce store path = .ok ⟨path, version, tags.map .ofText, process⟩ :=
  introduce_of_answers hprogram (Channel.decode_toJson trivial) (decode_declaration tags) hversion
    htags

/-- A host with two plugins in a directory that both declare one type, in different spellings. -/
def rivals : Host where
  store := { entries := Table.ofList [
    (["plugins"], .directory),
    (["plugins", "first"], .file {
      content := ByteArray.empty
      executable := true
      program := some (answering "1.0" ["a", " txt"]) }),
    (["plugins", "second"], .file {
      content := ByteArray.empty
      executable := true
      program := some (answering "2.0" ["TXT"]) })] }

theorem select_rivals : select rivals.store ⟨"/plugins"⟩ (.ok ["first", "second"])
    = (.ok [⟨"/plugins/first"⟩, ⟨"/plugins/second"⟩], []) := by
  have hexamine : examine rivals.store ⟨"/plugins"⟩ ["first", "second"]
      = (.ok ["first", "second"], []) := rfl
  have hsorted : ["first", "second"].mergeSort notAfter = ["first", "second"] :=
    List.mergeSort_of_pairwise (by decide)
  simp only [select, hexamine, Except.map, hsorted]
  rfl

/-- Listed in the other order, the second plugin still has the type that both declare, and the
    first the one that it alone declares. -/
theorem loadListed_by_name_rivals :
    (∀ names : List String, names.reverse.Perm names)
      ∧ ∃ after, loadListed {} rivals ⟨"/plugins"⟩
            ((listing rivals.store ⟨"/plugins"⟩).map List.reverse) = (.ok (), after)
        ∧ after.registry.entry? (.ofText "TXT")
          = some ⟨.ofExecutable ⟨"/plugins/second"⟩, 1, External.plugin 1 "2.0"⟩
        ∧ after.registry.entry? .a
          = some ⟨.ofExecutable ⟨"/plugins/first"⟩, 0, External.plugin 0 "1.0"⟩ := by
  have hreverse : ∀ names : List String, names.reverse.Perm names := List.reverse_perm
  rcases introduce_answering (rfl : rivals.store.programAt ⟨"/plugins/first"⟩
      = .ok (answering "1.0" ["a", " txt"])) (by rw [Json.write_eq]; decide)
    (by rw [declaration, Json.write_eq]; decide) with ⟨one, hone⟩
  rcases introduce_answering (rfl : rivals.store.programAt ⟨"/plugins/second"⟩
      = .ok (answering "2.0" ["TXT"])) (by rw [Json.write_eq]; decide)
    (by rw [declaration, Json.write_eq]; decide) with ⟨two, htwo⟩
  let first : Introduced := ⟨⟨"/plugins/first"⟩, "1.0", ["a", " txt"].map .ofText, one⟩
  let second : Introduced := ⟨⟨"/plugins/second"⟩, "2.0", ["TXT"].map .ofText, two⟩
  have htold : AreIntroduced rivals.store [first, second] := by
    intro plugin hm
    rcases List.mem_cons.mp hm with rfl | hm
    · exact hone
    · rw [List.mem_singleton.mp hm]
      exact htwo
  rcases exists_after_of_areIntroduced ⟨{}, rivals, []⟩ htold with ⟨after, hloaded, hafter⟩
  have hload : load {} rivals ⟨"/plugins"⟩ = (.ok (), after) := by
    have hlisting : listing rivals.store ⟨"/plugins"⟩ = .ok ["first", "second"] := rfl
    rw [load, hlisting, loadListed, select_rivals]
    exact hloaded
  have hagrees := (loadListed_by_name hreverse {} rivals ⟨"/plugins"⟩).2
  rw [hload] at hagrees
  rcases hagrees with heq | ⟨-, other, -, hother, -⟩
  · have hboth : [first, second] = [first] ++ [second] := rfl
    have hnone : ∀ plugin ∈ [second], .a ∉ plugin.types := fun plugin hm => by
      rw [List.mem_singleton.mp hm]
      exact (by decide : RecordType.a ∉ ["TXT"].map RecordType.ofText)
    refine ⟨hreverse, after, heq, ?_, ?_⟩
    · exact (hafter.entries _).unique (.last hboth List.mem_cons_self
        fun _ ho => absurd ho List.not_mem_nil)
    · exact (hafter.entries _).unique (.last (List.nil_append _).symm List.mem_cons_self hnone)
  · cases hother

/-- A host with two links in a directory that both lead nowhere, one of them because it leads to
    itself. -/
def astray : Host where
  store := { entries := Table.ofList [
    (["plugins"], .directory),
    (["plugins", "dangling"], .link ⟨"missing"⟩),
    (["plugins", "looping"], .link ⟨"looping"⟩)] }

/-- The reason that the system gives for the first of them is the one that is reported, so it
    does depend on how the directory is listed. -/
theorem loadListed_reverse_astray :
    (∀ names : List String, names.reverse.Perm names)
      ∧ listing astray.store ⟨"/plugins"⟩ = .ok ["dangling", "looping"]
      ∧ (load {} astray ⟨"/plugins"⟩).1 = .error (.discover ⟨"/plugins"⟩ .notFound)
      ∧ (loadListed {} astray ⟨"/plugins"⟩
            ((listing astray.store ⟨"/plugins"⟩).map List.reverse)).1
          = .error (.discover ⟨"/plugins"⟩ .tooManyLinks)
      ∧ (loadListed {} astray ⟨"/plugins"⟩
            ((listing astray.store ⟨"/plugins"⟩).map List.reverse)).1
          ≠ (load {} astray ⟨"/plugins"⟩).1 := by
  have hlisting : listing astray.store ⟨"/plugins"⟩ = .ok ["dangling", "looping"] := rfl
  have hload : (load {} astray ⟨"/plugins"⟩).1 = .error (.discover ⟨"/plugins"⟩ .notFound) := rfl
  have hreverse : (loadListed {} astray ⟨"/plugins"⟩
      ((listing astray.store ⟨"/plugins"⟩).map List.reverse)).1
        = .error (.discover ⟨"/plugins"⟩ .tooManyLinks) := rfl
  refine ⟨List.reverse_perm, hlisting, hload, hreverse, ?_⟩
  rw [hreverse, hload]
  nofun

end Discovery

end DnsZones
