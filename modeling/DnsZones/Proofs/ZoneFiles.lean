import DnsZones.Output
import DnsZones.Proofs.Store.Replacing

/-!
# Zone Files, Call by Call

What can come of writing zone files.

A zone file is replaced call by call, and any of the calls can fail. So there is
more than one thing that can come of writing it, and the function that writes it
gives one of them: the one where no call fails unless what is in the store makes it.
What is said of all of them is said of that function.

A zone whose name has no slash in it is an entry of the output directory. Whether
its file can be written is then decided by the directory, by the text of the path
and by whether a directory has the name already.

## Main definitions

* `Output.Writes`, `Output.WritesAll`: What can come of writing one file, and of writing several.
* `Output.CanWrite`: A file that can be written if no call fails that could do otherwise.

## Theorems

* `Output.replaced_of_writes`, `Output.eq_of_writes`: What writing one file changes.
* `Output.canWrite_of_writes`: The same for a name without a slash.
* `Output.writes_writeZone`, `Output.writesAll_writeZones`: What the functions do.
-/

namespace DnsZones

namespace Output

variable {store before after : Store} {directory path : Path} {zone text : String}
  {d : Location} {texts : List (String × String)}
  {results : List (String × Except ZoneError Path)}

/-- What writing a zone file gives, by what came of replacing the file. -/
def outcome (directory : Path) (zone : String) : Except SystemError Unit → Except ZoneError Path
  | .ok _ => .ok (directory.join zone)
  | .error cause => .error ⟨zone, .write (directory.join zone) cause⟩

/-- What can come of writing a zone file, as each of the calls for it may fail. -/
def Writes (before : Store) (directory : Path) (zone text : String)
    (result : Except ZoneError Path) (after : Store) : Prop :=
  ∃ ended, result = outcome directory zone ended
    ∧ Replacing.Calls before directory (directory.join zone) text.toUTF8 (after, .ended ended)

/-- What can come of writing zone files in order. -/
inductive WritesAll (directory : Path) : (before : Store) → (texts : List (String × String)) →
    (results : List (String × Except ZoneError Path)) → (after : Store) → Prop where
  | nil {store : Store} : WritesAll directory store [] [] store
  | cons {before middle after : Store} {zone text : String} {texts : List (String × String)}
    {result : Except ZoneError Path} {results : List (String × Except ZoneError Path)}
    (h : Writes before directory zone text result middle)
    (hrest : WritesAll directory middle texts results after) :
    WritesAll directory before ((zone, text) :: texts) ((zone, result) :: results) after

/-! ### One file -/

theorem writes_writeZone (store : Store) (directory : Path) (zone text : String) :
    Writes store directory zone text (writeZone store directory zone text).1
      (writeZone store directory zone text).2 := by
  have hcalls := Replacing.calls_replaceFile store directory (directory.join zone) text.toUTF8
  unfold writeZone
  dsimp only
  split
  · next written hw =>
      rw [hw] at hcalls
      exact ⟨.ok (), rfl, hcalls⟩
  · next cause written hw =>
      rw [hw] at hcalls
      exact ⟨.error cause, rfl, hcalls⟩

theorem names_of_writes (h : Writes before directory zone text (.ok path) after) :
    path = directory.join zone ∧ ∃ above d name, before.temporaryDirectory directory = .ok above
      ∧ Store.Names before (directory.join zone) d name
      ∧ after = before.put (d ++ [name]) (.file { content := text.toUTF8 }) := by
  rcases h with ⟨ended, hresult, hcalls⟩
  cases ended with
  | ok _ => exact ⟨Except.ok.inj hresult, Replacing.names_of_calls hcalls⟩
  | error cause => cases hresult

theorem eq_of_writes {error : ZoneError}
    (h : Writes before directory zone text (.error error) after) : after = before := by
  rcases h with ⟨ended, hresult, hcalls⟩
  cases ended with
  | ok _ => cases hresult
  | error cause => exact Replacing.eq_of_calls hcalls

theorem replaced_of_writes (h : Writes before directory zone text (.ok path) after) :
    path = directory.join zone
      ∧ ∃ location, Store.Replaced before path text.toUTF8 location after := by
  rcases names_of_writes h with ⟨rfl, above, d, name, -, hnames, rfl⟩
  exact ⟨rfl, _, hnames.replaced text.toUTF8⟩

theorem directory_of_temporaryDirectory (h : store.temporaryDirectory directory = .ok d) :
    store.directory directory = .ok d
      ∧ Store.checkPath (store.temporaryPath directory) = .ok () := by
  unfold Store.temporaryDirectory at h
  cases hc : Store.checkPath (store.temporaryPath directory) with
  | error error =>
      rw [hc] at h
      cases h
  | ok _ =>
      rw [hc] at h
      exact ⟨h, rfl⟩

/-- A file that can be written under a name without a slash, if no call fails that could do
    otherwise. -/
structure CanWrite (store : Store) (directory : Path) (zone : String) (d : Location) : Prop where
  found : store.directory directory = .ok d
  /-- There is room for the path under which the file is first written. -/
  room : Store.checkPath (store.temporaryPath directory) = .ok ()
  entryName : Path.IsEntryName zone
  canHold : store.CanHold directory d zone

/-- A file that was written under a name without a slash is the entry of the directory with that
    name. -/
theorem canWrite_of_writes (hslash : '/' ∉ zone.toList)
    (h : Writes before directory zone text (.ok path) after) :
    path = directory.join zone ∧ ∃ d, CanWrite before directory zone d
      ∧ after = before.put (d ++ [zone]) (.file { content := text.toUTF8 }) := by
  rcases names_of_writes h with ⟨hpath, above, d, name, htemporary, hnames, hafter⟩
  rcases directory_of_temporaryDirectory htemporary with ⟨hd, hroom⟩
  rcases hnames.append_eq_of_join hd hslash with ⟨hentry, he⟩
  have hname : name = zone := List.singleton_inj.mp (List.append_inj' he rfl).2
  rw [he] at hafter
  have hshort := hnames.short
  have hfree := hnames.notDirectory
  rw [hname] at hshort
  rw [he] at hfree
  exact ⟨hpath, above, ⟨hd, hroom, hentry, hnames.checked, hshort, hfree⟩, hafter⟩

theorem writeZone_of_canWrite (h : CanWrite store directory zone d) (text : String) :
    writeZone store directory zone text
      = (.ok (directory.join zone),
        store.put (d ++ [zone]) (.file { content := text.toUTF8 })) := by
  have hreplace := Store.replaceFile_of_canHold h.found h.entryName h.canHold h.room
    text.toUTF8
  unfold writeZone
  dsimp only
  rw [hreplace]

/-! ### All files -/

theorem writesAll_writeZones (store : Store) (directory : Path) (texts : List (String × String)) :
    WritesAll directory store texts (writeZones store directory texts).1
      (writeZones store directory texts).2 := by
  induction texts generalizing store with
  | nil => exact .nil
  | cons first rest ih =>
      rcases first with ⟨zone, text⟩
      have hfirst := writes_writeZone store directory zone text
      cases hw : writeZone store directory zone text with
      | mk result middle =>
          rw [hw] at hfirst
          simp only [writeZones, hw]
          exact .cons hfirst (ih middle)

theorem names_of_writesAll (h : WritesAll directory before texts results after) :
    results.map (·.1) = texts.map (·.1) := by
  induction h with
  | nil => rfl
  | cons _ _ ih => rw [List.map_cons, List.map_cons, ih]

theorem path_of_writesAll (h : WritesAll directory before texts results after)
    (hm : (zone, .ok path) ∈ results) : path = directory.join zone := by
  induction h with
  | nil => cases hm
  | cons h _ ih =>
      rcases List.mem_cons.mp hm with he | hm
      · cases he
        exact (replaced_of_writes h).1
      · exact ih hm

end Output

end DnsZones
