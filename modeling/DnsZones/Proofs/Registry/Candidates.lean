import DnsZones.Proofs.ByteOrder
import DnsZones.Proofs.Table
import DnsZones.Registry.Discovery
import Mathlib.Data.List.Nodup
import Mathlib.Data.List.Sort

/-!
# Which Files Are Plugins

The plugins that are found in a directory, whatever the order in which it is listed.

Every name in the directory is looked at, and one that denotes nothing ends the search.
If there is no such name then the plugins are the names that pass, and sorting them
leaves nothing of the order in which they came. Otherwise the search fails whatever the
order; which of the names it fails for is the only thing that depends on it.

## Main definitions

* `Discovery.IsPlugin`: A name denotes a plugin.
* `Discovery.AreExaminable`: Every name denotes something.
* `Discovery.IsSelection`: The plugins among some names, in the order of their bytes.

## Theorems

* `Discovery.examine_of_areExaminable`, `Discovery.examine_of_not`: How the search ends.
* `Discovery.select_of_error`, `Discovery.select_of_not`: When there is nothing to be found.
* `Discovery.select_perm`: The order of the names does not matter.
* `Discovery.exists_selection`: What is found.
* `Discovery.nodup_of_listing`: A directory has no name twice.
-/

namespace DnsZones

namespace Discovery

variable {store : Store} {directory : Path} {names others : List String} {name : String}

/-- A name in a directory denotes a regular file that may be run, links followed. -/
def IsPlugin (store : Store) (directory : Path) (name : String) : Prop :=
  ∃ location file, store.status (directory.join name) = .ok (location, .file file)
    ∧ file.executable = true

/-- Every name in a directory denotes something, links followed. -/
def AreExaminable (store : Store) (directory : Path) (names : List String) : Prop :=
  ∀ name ∈ names, ∃ found, store.status (directory.join name) = .ok found

/-- The plugins among the names in a directory, in the order of their bytes. -/
structure IsSelection (store : Store) (directory : Path) (names plugins : List String) : Prop where
  /-- All names can be examined. -/
  examinable : AreExaminable store directory names
  /-- The plugins are in strict order. -/
  ordered : plugins.Pairwise fun a b => ByteOrder.bytes a < ByteOrder.bytes b
  /-- They are the names that denote plugins. -/
  mem_iff : ∀ name, name ∈ plugins ↔ name ∈ names ∧ IsPlugin store directory name

/-! ### The search -/

/-- Whether what a name denotes is a plugin. -/
def isRunnable : Except SystemError (Location × Entry) → Bool
  | .ok (_, .file file) => file.executable
  | _ => false

/-- Whether a name denotes a plugin. -/
def isPlugin (store : Store) (directory : Path) (name : String) : Bool :=
  isRunnable (store.status (directory.join name))

theorem isPlugin_iff : isPlugin store directory name = true ↔ IsPlugin store directory name := by
  unfold isPlugin IsPlugin
  generalize store.status (directory.join name) = found
  constructor
  · intro h
    match found, h with
    | .ok (location, .file file), h => exact ⟨location, file, rfl, h⟩
  · rintro ⟨location, file, rfl, hrun⟩
    exact hrun

theorem examine_of_error {cause : SystemError} (names : List String)
    (h : store.status (directory.join name) = .error cause) :
    examine store directory (name :: names) = (.error (.discover directory cause), []) := by
  unfold examine
  rw [h]

theorem examine_of_ok {location : Location} {entry : Entry} (names : List String)
    (h : store.status (directory.join name) = .ok (location, entry)) :
    examine store directory (name :: names)
      = let (found, notices) := examine store directory names
        match entry with
        | .directory => (found, .directorySkipped :: notices)
        | .file file => (if file.executable then found.map (name :: ·) else found, notices)
        | .link _ => (found, notices) := by
  rw [examine.eq_def]
  simp only [h]
  cases entry <;> rfl

/-- If every name denotes something then the names that pass are found, and the directories are
    passed over. -/
theorem examine_of_areExaminable (h : AreExaminable store directory names) :
    examine store directory names
      = (.ok (names.filter (isPlugin store directory)),
          (names.filter fun name => store.isDirectory (directory.join name)).map
            fun _ => .directorySkipped) := by
  induction names with
  | nil => rfl
  | cons name names ih =>
      rcases h name List.mem_cons_self with ⟨⟨location, entry⟩, hstatus⟩
      have ih := ih fun other ho => h other (List.mem_cons_of_mem _ ho)
      rw [examine_of_ok names hstatus, ih]
      simp only [List.filter_cons, isPlugin, Store.isDirectory, hstatus]
      cases entry with
      | directory => rfl
      | link target => rfl
      | file file =>
          cases hrun : file.executable with
          | true => simp only [isRunnable, hrun, Except.map, Bool.false_eq_true, if_true, if_false]
          | false => simp only [isRunnable, hrun, Bool.false_eq_true, if_false]

/-- If some name denotes nothing then one such name ends the search. -/
theorem examine_of_not (h : ¬AreExaminable store directory names) :
    ∃ name ∈ names, ∃ cause, store.status (directory.join name) = .error cause
      ∧ (examine store directory names).1 = .error (.discover directory cause) := by
  induction names with
  | nil => exact absurd (fun _ h => absurd h List.not_mem_nil) h
  | cons name names ih =>
      cases hstatus : store.status (directory.join name) with
      | error cause =>
          refine ⟨name, List.mem_cons_self, cause, hstatus, ?_⟩
          rw [examine_of_error names hstatus]
      | ok found =>
          have hlater : ¬AreExaminable store directory names := fun hlater =>
            h fun other ho => (List.mem_cons.mp ho).elim (fun heq => heq ▸ ⟨found, hstatus⟩)
              (hlater other)
          rcases ih hlater with ⟨other, ho, cause, hcause, hexamine⟩
          refine ⟨other, List.mem_cons_of_mem _ ho, cause, hcause, ?_⟩
          rcases found with ⟨location, entry⟩
          rw [examine_of_ok names hstatus]
          cases entry with
          | directory => exact hexamine
          | link target => exact hexamine
          | file file =>
              simp only [hexamine]
              split <;> rfl

/-! ### The order of names -/

theorem notAfter_trans (a b c : String) (hab : notAfter a b = true) (hbc : notAfter b c = true) :
    notAfter a c = true := Std.TransCmp.isLE_trans hab hbc

theorem notAfter_total (a b : String) : (notAfter a b || notAfter b a) = true := by
  have hswap : KeyOrder.cmp b a = (KeyOrder.cmp a b).swap := Std.OrientedCmp.eq_swap
  rw [notAfter, notAfter, hswap]
  cases KeyOrder.cmp a b <;> rfl

theorem notAfter_antisymm (a b : String) (hab : notAfter a b = true) (hba : notAfter b a = true) :
    a = b := Table.cmp_eq_iff.mp (Std.OrientedCmp.isLE_antisymm hab hba)

/-- Of two different names that are in order the first has the smaller bytes. -/
theorem bytes_lt_of_notAfter {a b : String} (h : notAfter a b = true) (hne : a ≠ b) :
    ByteOrder.bytes a < ByteOrder.bytes b := by
  refine ByteOrder.cmp_eq_lt_iff.mp ?_
  unfold notAfter at h
  cases hcmp : KeyOrder.cmp a b with
  | lt => rfl
  | eq => exact absurd (Table.cmp_eq_iff.mp hcmp) hne
  | gt => rw [hcmp] at h; cases h

theorem pairwise_mergeSort (names : List String) :
    (names.mergeSort notAfter).Pairwise fun a b => notAfter a b = true :=
  List.pairwise_mergeSort notAfter_trans notAfter_total names

/-- Sorting forgets the order in which the names came. -/
theorem mergeSort_perm_eq (h : names.Perm others) :
    names.mergeSort notAfter = others.mergeSort notAfter :=
  (((List.mergeSort_perm names notAfter).trans h).trans
      (List.mergeSort_perm others notAfter).symm).eq_of_pairwise
    (fun a b _ _ => notAfter_antisymm a b) (pairwise_mergeSort names) (pairwise_mergeSort others)

/-- A directory that cannot be read ends the search, unless it is missing. -/
theorem select_of_error {cause : SystemError} (h : cause ≠ .notFound) :
    select store directory (.error cause) = (.error (.discover directory cause), []) := by
  unfold select
  split
  · next heq =>
      cases heq
      exact absurd rfl h
  · next heq =>
      cases heq
      rfl
  · next heq => cases heq

/-- If every name denotes something then nothing depends on the order of the names. -/
theorem select_perm (hp : names.Perm others) (h : AreExaminable store directory names) :
    select store directory (.ok names) = select store directory (.ok others) := by
  have hothers : AreExaminable store directory others := fun name hm => h name (hp.mem_iff.mpr hm)
  have hskipped : ∀ keep : String → Bool,
      (names.filter keep).map (fun _ => Notice.directorySkipped)
        = (others.filter keep).map fun _ => .directorySkipped := fun keep => by
    rw [List.map_const', List.map_const', (hp.filter keep).length_eq]
  simp only [select, examine_of_areExaminable h, examine_of_areExaminable hothers, hskipped,
    Except.map, mergeSort_perm_eq (hp.filter _)]

/-- What is found among names that all denote something. -/
theorem exists_selection (hnodup : names.Nodup) (h : AreExaminable store directory names) :
    ∃ plugins notices, IsSelection store directory names plugins
      ∧ select store directory (.ok names) = (.ok (plugins.map directory.join), notices) := by
  let found := names.filter (isPlugin store directory)
  have hperm : (found.mergeSort notAfter).Perm found := List.mergeSort_perm found notAfter
  refine ⟨found.mergeSort notAfter, (select store directory (.ok names)).2,
    ⟨h, ?_, fun name => ?_⟩, ?_⟩
  · have hdistinct : (found.mergeSort notAfter).Nodup := hperm.nodup_iff.mpr (hnodup.filter _)
    exact (pairwise_mergeSort found).imp₂ (fun _ _ => bytes_lt_of_notAfter) hdistinct
  · rw [hperm.mem_iff, List.mem_filter, isPlugin_iff]
  · simp only [select, examine_of_areExaminable h, Except.map, found]

/-- A name that denotes nothing ends the search. -/
theorem select_of_not (h : ¬AreExaminable store directory names) :
    ∃ name ∈ names, ∃ cause notices, store.status (directory.join name) = .error cause
      ∧ select store directory (.ok names) = (.error (.discover directory cause), notices) := by
  rcases examine_of_not h with ⟨name, hm, cause, hstatus, hexamine⟩
  refine ⟨name, hm, cause, (examine store directory names).2, hstatus, ?_⟩
  simp only [select, hexamine]
  rfl

/-! ### The names in a directory -/

/-- The name that a location has in a directory. -/
def nameIn? (directory location : Location) : Option String :=
  match location.getLast? with
  | some name => if location.dropLast = directory then some name else none
  | none => none

theorem eq_of_mem_nameIn? {directory location : Location} (h : name ∈ nameIn? directory location) :
    location = directory ++ [name] := by
  unfold nameIn? at h
  split at h
  · next last hlast =>
      split at h
      · next hdrop =>
          cases h
          rw [← hdrop]
          exact (List.dropLast_append_getLast? name hlast).symm
      · cases h
  · cases h

theorem map_fst_children (store : Store) (directory : Location) :
    (store.children directory).map (·.1) = store.entries.keys.filterMap (nameIn? directory) := by
  rw [Store.children, Table.keys, List.filterMap_map, List.map_filterMap]
  refine List.filterMap_congr fun entry _ => ?_
  rw [Function.comp_apply, nameIn?]
  cases entry.1.getLast? with
  | none => rfl
  | some name => simp only [apply_ite (Option.map _), Option.map_some, Option.map_none]

theorem nodup_of_listing (h : listing store directory = .ok names) : names.Nodup := by
  unfold listing Store.list at h
  split at h
  · next location _ =>
      cases h
      show ((store.children location).map (·.1)).Nodup
      rw [map_fst_children]
      refine (Table.nodup_keys store.entries).filterMap fun a b name ha hb => ?_
      exact (eq_of_mem_nameIn? ha).trans (eq_of_mem_nameIn? hb).symm
  · cases h
  · cases h

end Discovery

end DnsZones
