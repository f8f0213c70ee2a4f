import DnsZones.Proofs.Reports
import DnsZones.Proofs.Reverse.Grouping
import DnsZones.Proofs.ZoneFiles
import DnsZones.Run

/-!
# Where Zone Files Are

Whether a run leaves one file for each zone in the output directory.

A zone file is written under the zone's name, and the name is taken for the rest
of a path below the output directory. Nothing checks it, since a zone may have any
name in a definition. As long as there is no slash in it, it is the name of an
entry of the directory: a name that cannot be one, such as two dots, is turned
down by the file system, and different zones have different names. What is written
first is not in the way of what follows, even where a file takes the place of a
link, because a directory that is still found afterwards was found at the same
location before.

A name with a slash in it is never that of an entry. A file that is written under
it is in another directory, or has another name there, which may be that of
another zone.

## Main definitions

* `Output.InPlace`: Every file is in its place, and nothing else was changed.

## Theorems

* `Output.inPlace_of_writesAll`: What writing all of them changes.
* `Options.generate_inPlace_iff`: When the files of a run are in their places.
-/

namespace DnsZones

namespace Output

variable {store after : Store} {directory path : Path} {zone text : String}

/-! ### All files -/

/-- Every file of a run is in its place: it is the entry of the output directory that has exactly
    the zone's name and it holds the zone's text, and nothing is changed anywhere else. -/
structure InPlace (before : Store) (directory : Path) (texts : List (String × String))
    (results : List (String × Except ZoneError Path)) (after : Store) : Prop where
  own : ∀ zone path, (zone, .ok path) ∈ results →
    ∃ d text, before.directory directory = .ok d ∧ Path.IsEntryName zone ∧ (zone, text) ∈ texts
      ∧ after.entryAt (d ++ [zone]) = some (.file { content := text.toUTF8 })
  rest : ∀ location, after.entryAt location ≠ before.entryAt location →
    ∃ d zone path, before.directory directory = .ok d ∧ (zone, .ok path) ∈ results
      ∧ location = d ++ [zone]

theorem name_of_mem_writeZones {texts : List (String × String)} {result : Except ZoneError Path}
    (h : (zone, result) ∈ (writeZones store directory texts).1) : zone ∈ texts.map (·.1) := by
  rw [← names_of_writesAll (writesAll_writeZones store directory texts)]
  exact List.mem_map_of_mem h

/-- A zone whose file could not be written makes no difference. -/
theorem InPlace.cons_error {texts : List (String × String)}
    {results : List (String × Except ZoneError Path)} {error : ZoneError}
    (h : InPlace store directory texts results after) :
    InPlace store directory ((zone, text) :: texts) ((zone, .error error) :: results) after := by
  refine ⟨fun other path hm => ?_, fun location hl => ?_⟩
  · rcases List.mem_cons.mp hm with he | hm
    · cases he
    · rcases h.own other path hm with ⟨d, found, hd, hentry, hfound, hfile⟩
      exact ⟨d, found, hd, hentry, List.mem_cons_of_mem _ hfound, hfile⟩
  · rcases h.rest location hl with ⟨d, other, path, hd, hm, he⟩
    exact ⟨d, other, path, hd, List.mem_cons_of_mem _ hm, he⟩

/-- A file that is written first stays in its place while files of other zones are put in theirs. -/
theorem InPlace.cons_ok {texts : List (String × String)}
    {results : List (String × Except ZoneError Path)} {d : Location}
    (hd : store.directory directory = .ok d) (hentry : Path.IsEntryName zone)
    (hnew : ∀ path, (zone, .ok path) ∉ results)
    (h : InPlace (store.put (d ++ [zone]) (.file { content := text.toUTF8 })) directory texts
      results after) :
    InPlace store directory ((zone, text) :: texts) ((zone, .ok path) :: results) after := by
  -- Where the directory is found later, it was before this file was written.
  have hback : ∀ found, (store.put (d ++ [zone]) (.file { content := text.toUTF8 })).directory
      directory = .ok found → found = d := by
    intro found hfound
    have hsame := Store.directory_of_extends
      (Store.Extends.of_put_file (Store.append_singleton_ne_nil d zone) _) hfound
    exact Except.ok.inj (hsame.symm.trans hd)
  have hput := Store.entryAt_put_self store (Store.append_singleton_ne_nil d zone)
    (.file { content := text.toUTF8 })
  refine ⟨fun other found hm => ?_, fun location hl => ?_⟩
  · rcases List.mem_cons.mp hm with he | hm
    · cases he
      refine ⟨d, text, hd, hentry, List.mem_cons_self, ?_⟩
      -- Only a file of the same zone could change it again.
      by_contra hchanged
      rcases h.rest (d ++ [zone]) (fun he => hchanged (he.trans hput))
        with ⟨found, other, path, hfound, hm, he⟩
      cases hback found hfound
      cases List.singleton_inj.mp (List.append_cancel_left he)
      exact hnew path hm
    · rcases h.own other found hm with ⟨there, content, hthere, ho, hmem, hfile⟩
      cases hback there hthere
      exact ⟨d, content, hd, ho, List.mem_cons_of_mem _ hmem, hfile⟩
  · by_cases hzone : location = d ++ [zone]
    · exact ⟨d, zone, path, hd, List.mem_cons_self, hzone⟩
    · rw [← Store.entryAt_put_of_ne store (.file { content := text.toUTF8 }) hzone] at hl
      rcases h.rest location hl with ⟨there, other, found, hthere, hm, he⟩
      cases hback there hthere
      exact ⟨d, other, found, hd, List.mem_cons_of_mem _ hm, he⟩

/-- Zones with different names and without slashes have their files in their places, whichever of
    them could be written. -/
theorem inPlace_of_writesAll {texts : List (String × String)}
    {results : List (String × Except ZoneError Path)}
    (h : WritesAll directory store texts results after) (hnames : (texts.map (·.1)).Nodup)
    (hslash : ∀ zone path, (zone, .ok path) ∈ results → '/' ∉ zone.toList) :
    InPlace store directory texts results after := by
  induction h with
  | nil => exact ⟨fun zone path h => (nomatch h), fun location h => absurd rfl h⟩
  | @cons before middle after zone text texts result results h hrest ih =>
      rcases List.nodup_cons.mp hnames with ⟨hnew, hnodup⟩
      have hlater := ih hnodup fun other path hm => hslash other path (List.mem_cons_of_mem _ hm)
      cases result with
      | error error =>
          cases eq_of_writes h
          exact hlater.cons_error
      | ok path =>
          rcases canWrite_of_writes (hslash zone path List.mem_cons_self) h with ⟨-, d, hcan, rfl⟩
          refine hlater.cons_ok hcan.found hcan.entryName fun _ hm => hnew ?_
          rw [← names_of_writesAll hrest]
          exact List.mem_map_of_mem hm

/-- The files are in their places exactly if no zone that was written has a slash in its name. -/
theorem inPlace_writeZones_iff {texts : List (String × String)}
    (hnames : (texts.map (·.1)).Nodup) :
    InPlace store directory texts (writeZones store directory texts).1
        (writeZones store directory texts).2
      ↔ ∀ zone path, (zone, .ok path) ∈ (writeZones store directory texts).1 →
        '/' ∉ zone.toList := by
  refine ⟨fun h zone path hm => ?_,
    inPlace_of_writesAll (writesAll_writeZones store directory texts) hnames⟩
  rcases h.own zone path hm with ⟨_, _, _, hentry, _⟩
  exact hentry.noSlash

end Output

/-! ### A whole run -/

/-- No reverse zone has a slash in its name. -/
theorem Derivation.not_mem_of_yields {given : Zones} {name : String}
    (h : Derivation.Yields given name) : '/' ∉ name.toList := by
  rcases h with ⟨source, zone, reverse, -, hm⟩
  rcases Derivation.mem_yields_iff.mp hm with ⟨-, zones, hderive, hreverse⟩
  have hgrouped := Reverse.isGrouped_of_deriveAll (Reverse.derive_eq_ok_iff.mp hderive)
  rcases (hgrouped.names name).mp (Table.contains_iff.mpr ⟨reverse, hreverse⟩)
    with ⟨_, _, address, -, rfl⟩
  intro hslash
  rcases Name.eq_dot_or_isLabelChar (Name.isValid_reverseZone address) hslash with he | hc
  · exact absurd he (by decide)
  · exact absurd hc (by decide)

namespace Options

/-- The engine with which a run generates zones. -/
def engine (options : Options) (registry : Registry Host) (host : Host) : Engine Host where
  registry := registry
  defaults := some options.defaults
  workingDirectory := host.store.workingPath

/-- What a run generates before it writes anything. -/
def generated (options : Options) (registry : Registry Host) (zones : Zones) (host : Host) :
    Generated × Host :=
  (options.engine registry host).generate zones host

/-- What a run writes: for each zone where its file is or why there is none, and what the store
    is afterwards. -/
def files (options : Options) (registry : Registry Host) (zones : Zones) (host : Host) :
    List (String × Except ZoneError Path) × Store :=
  Output.writeZones (options.generated registry zones host).2.store options.output
    (options.generated registry zones host).1.texts.entries

/-- The files of a run are in their places. -/
def FilesInPlace (options : Options) (registry : Registry Host) (zones : Zones) (host : Host) :
    Prop :=
  Output.InPlace (options.generated registry zones host).2.store options.output
    (options.generated registry zones host).1.texts.entries
    (options.files registry zones host).1 (options.files registry zones host).2

variable {options : Options} {registry : Registry Host} {zones : Zones} {host : Host}

theorem filesInPlace_iff :
    options.FilesInPlace registry zones host
      ↔ ∀ zone path, (zone, .ok path) ∈ (options.files registry zones host).1 →
        '/' ∉ zone.toList :=
  Output.inPlace_writeZones_iff (options.generated registry zones host).1.texts.nodup_keys

/-- Whatever is written has a text, so its name was given or is that of a reverse zone. -/
theorem not_mem_of_mem_files (hslash : ∀ name, zones.contains name = true → '/' ∉ name.toList)
    {zone : String} {result : Except ZoneError Path}
    (h : (zone, result) ∈ (options.files registry zones host).1) : '/' ∉ zone.toList := by
  have hlisted : zone ∈ (options.generated registry zones host).1.texts.keys :=
    Output.name_of_mem_writeZones h
  have htext := Table.contains_iff.mpr (Table.mem_keys_iff.mp hlisted)
  rcases Engine.given_or_yields_of_text htext with hgiven | hyields
  · exact hslash zone hgiven
  · exact Derivation.not_mem_of_yields hyields

/-- A run writes the texts that it generated and reports what it wrote, and then the files are in
    their places exactly if no zone that was written has a slash in its name. It is enough that
    no name in the definition has one. -/
theorem generate_inPlace_iff (options : Options) (registry : Registry Host) (zones : Zones)
    (host : Host) :
    options.generate registry zones host
      = ({ Report.ofFiles (options.files registry zones host).1 with
            failures := (options.generated registry zones host).1.errors.map (·.message)
              ++ (Report.ofFiles (options.files registry zones host).1).failures },
        { (options.generated registry zones host).2 with
          store := (options.files registry zones host).2 })
    ∧ (options.FilesInPlace registry zones host
      ↔ ∀ zone path, (zone, .ok path) ∈ (options.files registry zones host).1 →
        '/' ∉ zone.toList)
    ∧ ((∀ name, zones.contains name = true → '/' ∉ name.toList) →
      options.FilesInPlace registry zones host) :=
  ⟨rfl, filesInPlace_iff,
    fun hslash => filesInPlace_iff.mpr fun _ _ hm => not_mem_of_mem_files hslash hm⟩

end Options

/-! ### Names with slashes -/

namespace Misplaced

def options : Options where
  definition := ⟨"zones.json"⟩
  output := ⟨"out"⟩
  plugins := ⟨"plugins"⟩
  serials := ⟨"serials"⟩
  generateSerial := false
  reverse := false

/-- A zone with nothing but its start of authority, told from others by its serial number. -/
def zone (serial : String) : Zone where
  records := Table.empty.insert "start" (.ofValues .soa [⟨"ns1.example.com.", none⟩,
    ⟨"hostmaster@example.com", none⟩, ⟨serial, none⟩, ⟨"3600", none⟩, ⟨"600", none⟩,
    ⟨"86400", none⟩, ⟨"300", none⟩])

/-- Two zones with slashes in their names, and one that is named as the second without. -/
def zones : Zones := .ofList [("../a.", zone "1"), ("./b.", zone "2"), ("b.", zone "3")]

/-- A host with an empty output directory. -/
def host : Host where
  store := { entries := Table.empty.insert ["out"] .directory }

/-- The texts of the three. -/
def texts : Table String String :=
  (options.generated (Builtin.registry Serial.defaultTimeout) zones host).1.texts

def run : Report × Host :=
  options.generate (Builtin.registry Serial.defaultTimeout) zones host

/-- All three zones are reported to be written. The file of the first is outside the output
    directory, and that of the second has another name there and was then overwritten by that of
    the third. -/
theorem not_inPlace_slashes :
    run.1 = { written := ["Zone '../a.' written to out/../a.", "Zone './b.' written to out/./b.",
      "Zone 'b.' written to out/b."], failures := [] }
    ∧ texts.keys = ["../a.", "./b.", "b."]
    ∧ texts.get? "./b." ≠ texts.get? "b."
    ∧ (run.2.store.children []).map (·.1) = ["a.", "out"]
    ∧ (run.2.store.readText ⟨"a."⟩).toOption = texts.get? "../a."
    ∧ (run.2.store.children ["out"]).map (·.1) = ["b."]
    ∧ (run.2.store.readText ⟨"out/b."⟩).toOption = texts.get? "b."
    ∧ ¬options.FilesInPlace (Builtin.registry Serial.defaultTimeout) zones host := by
  have hwritten : (options.files (Builtin.registry Serial.defaultTimeout) zones host).1
      = [("../a.", .ok ⟨"out/../a."⟩), ("./b.", .ok ⟨"out/./b."⟩), ("b.", .ok ⟨"out/b."⟩)] := by
    decide
  -- All but the last are computed from the same run.
  simp only [← and_assoc]
  refine ⟨by decide +kernel, fun hplace => ?_⟩
  refine Options.filesInPlace_iff.mp hplace "../a." ⟨"out/../a."⟩ ?_ (by decide)
  rw [hwritten]
  exact List.mem_cons_self

end Misplaced

end DnsZones
