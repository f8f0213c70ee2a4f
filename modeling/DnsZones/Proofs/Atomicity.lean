import DnsZones.Proofs.Placement

/-!
# Zone Files Written Whole

That a zone file is written as a whole or not at all, and that it does not matter
in which order several are written.

A zone file is replaced call by call, and any of the calls can fail. What is proved
here holds for all that can come of it: if there is a path then the file that it
named has the zone's text, and if there is an error then nothing has changed. For
zones without a slash in their names this can be put together. Whichever of them
fail, each of the others has its file, and what was there before is there wherever
no file was written.

This is so in every order, but which of the files can be written may depend on the
order. The way to the output directory may go along a link in that directory which
has the name of a zone. Once a file has taken its place, there is no way to the
directory any more. If no link on the way has the name of a zone, then each file is
written just if it would be on its own, and the order does not matter at all. The
orders are not compared with each other for that: which files are written, and what
is in them, is described without one.

## Main definitions

* `Output.Settled`: Every file has its text or is as it was.
* `Output.IsOpen`: The way to the directory does not go along what is to be replaced.
* `Output.IsOrderFree`: The order makes no difference.

## Theorems

* `Output.settled_of_writesAll`: What several files come to.
* `Output.mem_writeZones_iff`: Which files are written.
* `Output.writeZones_perm`: The order does not matter.
* `Output.writes_isAtomic`: All of it.
-/

namespace DnsZones

namespace Output

variable {store before after : Store} {directory path : Path} {zone text other : String}
  {d : Location} {texts texts' : List (String × String)}
  {results : List (String × Except ZoneError Path)}

/-! ### What each zone has -/

/-- Every zone has its text in its file, or an error and the file as it was. -/
structure Settled (before : Store) (directory : Path) (texts : List (String × String))
    (results : List (String × Except ZoneError Path)) (after : Store) : Prop where
  /-- There is one result for each zone. -/
  names : results.map (·.1) = texts.map (·.1)
  /-- A file that was written has the text of the zone. -/
  written : ∀ zone text path, (zone, text) ∈ texts → (zone, .ok path) ∈ results →
    path = directory.join zone ∧ ∃ d, before.directory directory = .ok d
      ∧ after.entryAt (d ++ [zone]) = some (.file { content := text.toUTF8 })
  /-- What was to be replaced and was not is as it was. -/
  kept : ∀ zone error d, (zone, .error error) ∈ results → before.directory directory = .ok d →
    after.entryAt (d ++ [zone]) = before.entryAt (d ++ [zone])
  /-- Everything else is as it was. -/
  others : ∀ location, (∀ zone path d, (zone, .ok path) ∈ results →
    before.directory directory = .ok d → location ≠ d ++ [zone]) →
    after.entryAt location = before.entryAt location

theorem settled_of_writesAll (h : WritesAll directory before texts results after)
    (hnames : (texts.map (·.1)).Nodup) (hslash : ∀ zone ∈ texts.map (·.1), '/' ∉ zone.toList) :
    Settled before directory texts results after := by
  have hone := names_of_writesAll h
  have hplace := inPlace_of_writesAll h hnames fun zone path hm =>
    hslash zone (hone ▸ List.mem_map_of_mem hm)
  refine ⟨hone, fun zone text path ht hm => ?_, fun zone error d hm hd => ?_,
    fun location hno => ?_⟩
  · rcases hplace.own zone path hm with ⟨d, found, hd, -, hfound, hfile⟩
    -- A zone has one text only.
    have htext := List.inj_on_of_nodup_map hnames hfound ht rfl
    cases htext
    exact ⟨path_of_writesAll h hm, d, hd, hfile⟩
  · by_contra hchanged
    -- What was changed is the file of a zone that was written, and so of this one.
    rcases hplace.rest _ hchanged with ⟨there, other, path, hthere, hok, he⟩
    cases hd.symm.trans hthere
    cases List.singleton_inj.mp (List.append_cancel_left he)
    -- A zone has one result only, and this one has two.
    rw [← hone] at hnames
    cases List.inj_on_of_nodup_map hnames hm hok rfl
  · by_contra hchanged
    rcases hplace.rest _ hchanged with ⟨d, zone, path, hd, hok, he⟩
    exact hno zone path d hok hd he

/-! ### The order -/

/-- The way to the directory does not go along a link that has the name of one of the zones. -/
def IsOpen (store : Store) (directory : Path) (zones : List String) : Prop :=
  ∀ d, store.directory directory = .ok d → ∀ zone ∈ zones,
    ¬store.LeadsAlong true directory (d ++ [zone])

theorem IsOpen.of_cons {zones : List String} (h : IsOpen store directory (zone :: zones)) :
    IsOpen store directory zones := fun d hd other hm =>
  h d hd other (List.mem_cons_of_mem _ hm)

/-- A new file opens no way along a link. -/
theorem IsOpen.put_file {zones : List String} {l : Location} (h : IsOpen store directory zones)
    (hl : l ≠ []) (file : File) : IsOpen (store.put l (.file file)) directory zones := by
  intro d hd zone hz hg
  have hback : Store.Extends (store.put l (.file file)) store := .of_put_file hl file
  exact h d (Store.directory_of_extends hback hd) zone hz (hg.of_extends hback)

/-- Whether a file can be written does not depend on those of other zones. -/
theorem canWrite_put_iff (hd : store.directory directory = .ok d)
    (hfree : store.entryAt (d ++ [other]) ≠ some .directory)
    (hopen : ¬store.LeadsAlong true directory (d ++ [other])) (hne : zone ≠ other) (file : File) :
    (∃ found, CanWrite (store.put (d ++ [other]) (.file file)) directory zone found)
      ↔ ∃ found, CanWrite store directory zone found := by
  have hthere := (Store.SameBut.put hfree (.file file)).directory_eq hd hopen
  have hentry : (store.put (d ++ [other]) (.file file)).entryAt (d ++ [zone])
      = store.entryAt (d ++ [zone]) :=
    Store.entryAt_put_of_ne store _ (Store.append_singleton_ne hne)
  constructor
  · rintro ⟨found, hfound, hroom, hname, hchecked, hshort, hdirectory⟩
    cases hthere.symm.trans hfound
    exact ⟨d, hd, hroom, hname, hchecked, hshort, hentry ▸ hdirectory⟩
  · rintro ⟨found, hfound, hroom, hname, hchecked, hshort, hdirectory⟩
    cases hd.symm.trans hfound
    exact ⟨d, hthere, hroom, hname, hchecked, hshort, hentry ▸ hdirectory⟩

/-- The first of several files is written or not, and the others come after it. -/
theorem writeZones_cons_cases (store : Store) (directory : Path) (hslash : '/' ∉ zone.toList)
    (text : String) (rest : List (String × String)) :
    (∃ d, CanWrite store directory zone d
        ∧ writeZones store directory ((zone, text) :: rest)
          = ((zone, .ok (directory.join zone))
              :: (writeZones (store.put (d ++ [zone]) (.file { content := text.toUTF8 }))
                directory rest).1,
            (writeZones (store.put (d ++ [zone]) (.file { content := text.toUTF8 }))
              directory rest).2))
      ∨ (∀ d, ¬CanWrite store directory zone d)
        ∧ ∃ error, writeZones store directory ((zone, text) :: rest)
          = ((zone, .error error) :: (writeZones store directory rest).1,
            (writeZones store directory rest).2) := by
  by_cases hcan : ∃ d, CanWrite store directory zone d
  · rcases hcan with ⟨d, hcan⟩
    refine Or.inl ⟨d, hcan, ?_⟩
    simp only [writeZones, writeZone_of_canWrite hcan]
  · have hnot : ∀ d, ¬CanWrite store directory zone d := fun d h => hcan ⟨d, h⟩
    have hwrites := writes_writeZone store directory zone text
    cases hw : writeZone store directory zone text with
    | mk result middle =>
        rw [hw] at hwrites
        cases result with
        | ok path =>
            rcases canWrite_of_writes hslash hwrites with ⟨-, d, h, -⟩
            exact absurd h (hnot d)
        | error error =>
            cases eq_of_writes hwrites
            refine Or.inr ⟨hnot, error, ?_⟩
            simp only [writeZones, hw]

/-- Each file is written just if it would be on its own. -/
theorem mem_writeZones_iff (hnames : (texts.map (·.1)).Nodup)
    (hslash : ∀ zone ∈ texts.map (·.1), '/' ∉ zone.toList)
    (hopen : IsOpen store directory (texts.map (·.1))) :
    (zone, .ok path) ∈ (writeZones store directory texts).1
      ↔ zone ∈ texts.map (·.1) ∧ path = directory.join zone
        ∧ ∃ d, CanWrite store directory zone d := by
  induction texts generalizing store with
  | nil => exact ⟨fun h => (nomatch h), fun h => (nomatch h.1)⟩
  | cons first rest ih =>
      rcases first with ⟨first, text⟩
      rcases List.nodup_cons.mp hnames with ⟨hnew, hnodup⟩
      have hrest := fun other hm => hslash other (List.mem_cons_of_mem _ hm)
      have hlater : IsOpen store directory (rest.map (·.1)) := hopen.of_cons
      rw [List.map_cons, List.mem_cons]
      rcases writeZones_cons_cases store directory (hslash first List.mem_cons_self) text rest with
        ⟨d, hcan, hw⟩ | ⟨hnot, error, hw⟩
      · -- The first file is written, which makes no difference to the others.
        have hne := Store.append_singleton_ne_nil d first
        have hput : ∀ other ∈ rest.map (·.1),
            (∃ found, CanWrite (store.put (d ++ [first]) (.file { content := text.toUTF8 }))
              directory other found) ↔ ∃ found, CanWrite store directory other found := by
          intro other hm
          refine canWrite_put_iff hcan.found hcan.canHold.notDirectory
            (hopen d hcan.found first List.mem_cons_self) ?_ _
          rintro rfl
          exact hnew hm
        rw [hw, List.mem_cons, ih hnodup hrest (hlater.put_file hne _)]
        constructor
        · rintro (he | ⟨hm, hpath, hwrite⟩)
          · cases he
            exact ⟨Or.inl rfl, rfl, d, hcan⟩
          · exact ⟨Or.inr hm, hpath, (hput zone hm).mp hwrite⟩
        · rintro ⟨he | hm, hpath, hwrite⟩
          · rw [he] at hpath ⊢
            exact Or.inl (by rw [hpath])
          · exact Or.inr ⟨hm, hpath, (hput zone hm).mpr hwrite⟩
      · rw [hw, List.mem_cons, ih hnodup hrest hlater]
        constructor
        · rintro (he | ⟨hm, hwrite⟩)
          · cases he
          · exact ⟨Or.inr hm, hwrite⟩
        · rintro ⟨he | hm, hpath, d, hwrite⟩
          · rw [he] at hwrite
            exact absurd hwrite (hnot d)
          · exact Or.inr ⟨hm, hpath, d, hwrite⟩

/-- The directory is found after all files were written. -/
theorem directory_writeZones (hslash : ∀ zone ∈ texts.map (·.1), '/' ∉ zone.toList)
    (hopen : IsOpen store directory (texts.map (·.1))) (hd : store.directory directory = .ok d) :
    (writeZones store directory texts).2.directory directory = .ok d := by
  induction texts generalizing store with
  | nil => exact hd
  | cons first rest ih =>
      rcases first with ⟨first, text⟩
      have hrest := fun other hm => hslash other (List.mem_cons_of_mem _ hm)
      have hlater : IsOpen store directory (rest.map (·.1)) := hopen.of_cons
      rcases writeZones_cons_cases store directory (hslash first List.mem_cons_self) text rest with
        ⟨found, hcan, hw⟩ | ⟨-, error, hw⟩
      · cases hd.symm.trans hcan.found
        rw [hw]
        refine ih hrest (hlater.put_file (Store.append_singleton_ne_nil d first) _) ?_
        exact (Store.SameBut.put hcan.canHold.notDirectory _).directory_eq hd
          (hopen d hd first List.mem_cons_self)
      · rw [hw]
        exact ih hrest hlater hd

/-- A file that was written is found under its path when all of them are. -/
theorem status_of_mem_writeZones (hnames : (texts.map (·.1)).Nodup)
    (hslash : ∀ zone ∈ texts.map (·.1), '/' ∉ zone.toList)
    (hopen : IsOpen store directory (texts.map (·.1))) (ht : (zone, text) ∈ texts)
    (hm : (zone, .ok path) ∈ (writeZones store directory texts).1) :
    ∃ d, (writeZones store directory texts).2.status path
      = .ok (d ++ [zone], .file { content := text.toUTF8 }) := by
  have hall := writesAll_writeZones store directory texts
  rcases (mem_writeZones_iff hnames hslash hopen).mp hm with ⟨-, rfl, d, hcan⟩
  rcases (settled_of_writesAll hall hnames hslash).written zone text _ ht hm with
    ⟨-, found, hfound, hfile⟩
  cases hcan.found.symm.trans hfound
  exact ⟨d, Store.status_join_of_file (directory_writeZones hslash hopen hcan.found)
    hcan.entryName hcan.canHold.checked hcan.canHold.short hfile⟩

/-- In every order the same files are written, and everything is the same in the end. -/
theorem writeZones_perm (hnames : (texts.map (·.1)).Nodup)
    (hslash : ∀ zone ∈ texts.map (·.1), '/' ∉ zone.toList)
    (hopen : IsOpen store directory (texts.map (·.1))) (hperm : texts.Perm texts') :
    (∀ zone path, (zone, .ok path) ∈ (writeZones store directory texts').1
        ↔ (zone, .ok path) ∈ (writeZones store directory texts).1)
      ∧ ∀ location, (writeZones store directory texts').2.entryAt location
        = (writeZones store directory texts).2.entryAt location := by
  have hkeys : ∀ zone, zone ∈ texts'.map (·.1) ↔ zone ∈ texts.map (·.1) := fun zone =>
    (hperm.map (·.1)).mem_iff.symm
  have hnames' : (texts'.map (·.1)).Nodup := (hperm.map (·.1)).nodup_iff.mp hnames
  have hslash' := fun zone hm => hslash zone ((hkeys zone).mp hm)
  have hopen' : IsOpen store directory (texts'.map (·.1)) := fun d hd zone hm =>
    hopen d hd zone ((hkeys zone).mp hm)
  have hsame : ∀ zone path, (zone, .ok path) ∈ (writeZones store directory texts').1
      ↔ (zone, .ok path) ∈ (writeZones store directory texts).1 := by
    intro zone path
    rw [mem_writeZones_iff hnames hslash hopen, mem_writeZones_iff hnames' hslash' hopen', hkeys]
  have hone := settled_of_writesAll (writesAll_writeZones store directory texts) hnames hslash
  have hother := settled_of_writesAll (writesAll_writeZones store directory texts') hnames' hslash'
  refine ⟨hsame, fun location => ?_⟩
  by_cases hwritten : ∃ zone path d, (zone, .ok path) ∈ (writeZones store directory texts).1
      ∧ store.directory directory = .ok d ∧ location = d ++ [zone]
  · -- A file that was written has the one text of its zone in both orders.
    rcases hwritten with ⟨zone, path, d, hm, hd, rfl⟩
    have hkey := ((mem_writeZones_iff hnames hslash hopen).mp hm).1
    rcases List.mem_map.mp hkey with ⟨⟨_, text⟩, ht, rfl⟩
    rcases hone.written _ text path ht hm with ⟨-, found, hfound, hfile⟩
    rcases hother.written _ text path (hperm.mem_iff.mp ht) ((hsame _ _).mpr hm) with
      ⟨-, found', hfound', hfile'⟩
    cases hd.symm.trans hfound
    cases hd.symm.trans hfound'
    rw [hfile, hfile']
  · -- Anything else is as it was before, in both orders.
    rw [hone.others location fun zone path d hm hd hl => hwritten ⟨zone, path, d, hm, hd, hl⟩,
      hother.others location fun zone path d hm hd hl =>
        hwritten ⟨zone, path, d, (hsame zone path).mp hm, hd, hl⟩]

/-- Each file is written as it would be on its own, and it does not matter in which order. -/
structure IsOrderFree (before : Store) (directory : Path) (texts : List (String × String)) :
    Prop where
  /-- Every file is written that can be. -/
  written : ∀ zone path, (zone, .ok path) ∈ (writeZones before directory texts).1
    ↔ zone ∈ texts.map (·.1) ∧ path = directory.join zone
      ∧ ∃ d, CanWrite before directory zone d
  /-- A file that was written is found under its path when all of them are. -/
  found : ∀ zone text path, (zone, text) ∈ texts →
    (zone, .ok path) ∈ (writeZones before directory texts).1 →
    ∃ d, (writeZones before directory texts).2.status path
      = .ok (d ++ [zone], .file { content := text.toUTF8 })
  /-- In every order the same files are written. -/
  results : ∀ texts', texts.Perm texts' → ∀ zone path,
    (zone, .ok path) ∈ (writeZones before directory texts').1
      ↔ (zone, .ok path) ∈ (writeZones before directory texts).1
  /-- In every order everything is the same in the end. -/
  entries : ∀ texts', texts.Perm texts' → ∀ location,
    (writeZones before directory texts').2.entryAt location
      = (writeZones before directory texts).2.entryAt location

theorem isOrderFree_of_isOpen (hnames : (texts.map (·.1)).Nodup)
    (hslash : ∀ zone ∈ texts.map (·.1), '/' ∉ zone.toList)
    (hopen : IsOpen before directory (texts.map (·.1))) : IsOrderFree before directory texts where
  written _ _ := mem_writeZones_iff hnames hslash hopen
  found _ _ _ ht hm := status_of_mem_writeZones hnames hslash hopen ht hm
  results _ hperm := (writeZones_perm hnames hslash hopen hperm).1
  entries _ hperm := (writeZones_perm hnames hslash hopen hperm).2

/-! ### All of it -/

/-- Writing a zone file is atomic, whichever call for it fails. If there is a path, then the file
    that it named before has the text and nothing else was changed; if there is an error, nothing
    was changed at all. Of several zones with different names and no slashes each has its text in
    its file, or an error and the file as it was. If the way to the directory goes along no link
    with one of their names, then each file is written that can be, it is found under its path
    afterwards, and the order does not matter. -/
theorem writes_isAtomic (before : Store) (directory : Path) :
    (∀ zone text, Writes before directory zone text (writeZone before directory zone text).1
      (writeZone before directory zone text).2)
    ∧ (∀ zone text path after, Writes before directory zone text (.ok path) after →
      path = directory.join zone
        ∧ ∃ location, Store.Replaced before path text.toUTF8 location after)
    ∧ (∀ zone text error after, Writes before directory zone text (.error error) after →
      after = before)
    ∧ (∀ texts, WritesAll directory before texts (writeZones before directory texts).1
      (writeZones before directory texts).2)
    ∧ (∀ texts results after, (texts.map (·.1)).Nodup →
      (∀ zone ∈ texts.map (·.1), '/' ∉ zone.toList) →
      WritesAll directory before texts results after →
      Settled before directory texts results after)
    ∧ (∀ texts, (texts.map (·.1)).Nodup → (∀ zone ∈ texts.map (·.1), '/' ∉ zone.toList) →
      IsOpen before directory (texts.map (·.1)) → IsOrderFree before directory texts) :=
  ⟨writes_writeZone before directory, fun _ _ _ _ h => replaced_of_writes h,
    fun _ _ _ _ h => eq_of_writes h, writesAll_writeZones before directory,
    fun _ _ _ hnames hslash h => settled_of_writesAll h hnames hslash,
    fun _ hnames hslash hopen => isOrderFree_of_isOpen hnames hslash hopen⟩

end Output

namespace Kept

/-- An output directory with one zone file in it. -/
def store : Store where
  entries := (Table.empty.insert ["out"] .directory).insert ["out", "b."]
    (.file { content := "old".toUTF8 })

def directory : Path := ⟨"out"⟩

/-- A new zone, one that has a file, and one whose name is that of no entry. -/
def texts : List (String × String) := [("a.", "1"), ("b.", "2"), ("..", "3")]

/-- One file is written, and one cannot be; then all three. -/
theorem writes_isAtomic_kept :
    (Output.writeZone store directory "a." "1").1 = .ok ⟨"out/a."⟩
    ∧ (∃ location, Store.Replaced store ⟨"out/a."⟩ "1".toUTF8 location
      (Output.writeZone store directory "a." "1").2)
    ∧ (Output.writeZone store directory ".." "3").1 = .error ⟨"..", .write ⟨"out/.."⟩ .busy⟩
    ∧ (Output.writeZone store directory ".." "3").2 = store
    ∧ Output.Settled store directory texts (Output.writeZones store directory texts).1
      (Output.writeZones store directory texts).2
    ∧ Output.IsOrderFree store directory texts := by
  have hwritten : (Output.writeZone store directory "a." "1").1 = .ok ⟨"out/a."⟩ := by
    decide
  have hfailed : (Output.writeZone store directory ".." "3").1
      = .error ⟨"..", .write ⟨"out/.."⟩ .busy⟩ := by
    decide
  rcases Output.writes_isAtomic store directory with
    ⟨hone, hok, herror, hall, hsettled, hfree⟩
  have hnodup : (texts.map (·.1)).Nodup := by decide
  have hslash : ∀ zone ∈ texts.map (·.1), '/' ∉ zone.toList := by decide
  refine ⟨hwritten, (hok "a." "1" ⟨"out/a."⟩ _ (hwritten ▸ hone "a." "1")).2, hfailed,
    herror ".." "3" _ _ (hfailed ▸ hone ".." "3"), hsettled texts _ _ hnodup hslash (hall texts),
    hfree texts hnodup hslash fun d hd zone hm halong => ?_⟩
  -- There is no link in the store at all.
  rcases halong.exists_link with ⟨target, hlink⟩
  have hout : store.directory directory = .ok ["out"] := rfl
  cases hout.symm.trans hd
  have hzone : zone = "a." ∨ zone = "b." ∨ zone = ".." := by
    simpa [texts] using hm
  rcases hzone with rfl | rfl | rfl
  · cases hlink
  · cases hlink
  · cases hlink

end Kept

namespace Linked

/-- A directory with a link in it that leads to the directory itself. -/
def store : Store where
  entries := (Table.empty.insert ["a"] .directory).insert ["a", "l"] (.link ⟨"."⟩)

/-- The directory, found along that link. -/
def directory : Path := ⟨"a/l"⟩

/-- The file takes the place of the link along which its path goes, so nothing is at the path that
    was reported, whether a link at its end is followed or not. Which other files can be written
    depends on whether they come before or after. -/
theorem not_found_linked :
    (Output.writeZone store directory "l" "t").1 = .ok ⟨"a/l/l"⟩
    ∧ (Output.writeZone store directory "l" "t").2.status ⟨"a/l/l"⟩ = .error .notDirectory
    ∧ (Output.writeZone store directory "l" "t").2.resolve false ⟨"a/l/l"⟩ = .error .notDirectory
    ∧ (Output.writeZones store directory [("m", "2"), ("l", "1")]).1
      = [("m", .ok ⟨"a/l/m"⟩), ("l", .ok ⟨"a/l/l"⟩)]
    ∧ (Output.writeZones store directory [("l", "1"), ("m", "2")]).1
      = [("l", .ok ⟨"a/l/l"⟩), ("m", .error ⟨"m", .write ⟨"a/l/m"⟩ .notDirectory⟩)] :=
  ⟨by decide, rfl, rfl, by decide, by decide⟩

end Linked

end DnsZones
