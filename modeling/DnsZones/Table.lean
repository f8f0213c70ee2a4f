import DnsZones.KeyOrder

/-!
# Ordered Finite Tables

Finite maps listed in key order.

A `Table` is a list of entries whose keys strictly increase. The order is a
field of the type, so every table is in normal form: two tables with the same
entries are equal, and a loop over a table visits the keys in the one order that
later shows in errors, in zone files and in log lines.

## Main definitions

* `Table`: Entries with strictly increasing keys.
* `Table.get?`, `Table.insert`, `Table.erase`: Reading and changing one key.
* `Table.ofList`: A table from any entries, a later one winning over an earlier.
* `Table.mergeOver`: One table laid over another.

## Theorems

* `get?_insert`: What every key holds after an insertion.
* `get?_empty`: The empty table holds nothing.
-/

namespace DnsZones

/-- A finite map whose entries are listed in key order. -/
structure Table (κ : Type) (β : Type) [KeyOrder κ] where
  entries : List (κ × β)
  /-- Each key comes strictly before all later ones. -/
  ordered : entries.Pairwise (fun a b => KeyOrder.cmp a.1 b.1 = .lt)

namespace Table

variable {κ β γ : Type} [KeyOrder κ]

/-- The table without entries. -/
def empty : Table κ β := ⟨[], List.Pairwise.nil⟩

instance : Inhabited (Table κ β) := ⟨empty⟩

instance : EmptyCollection (Table κ β) := ⟨empty⟩

/-- What the first entry for a key holds. -/
def lookup (key : κ) : List (κ × β) → Option β
  | [] => none
  | (k, value) :: rest => if KeyOrder.cmp key k = .eq then some value else lookup key rest

/-- What the table holds for a key. -/
def get? (table : Table κ β) (key : κ) : Option β := lookup key table.entries

/-- Whether the table has an entry for a key. -/
def contains (table : Table κ β) (key : κ) : Bool := (table.get? key).isSome

/-- Insert an entry in front of the first larger key, replacing an equal one. -/
def insertInto (key : κ) (value : β) : List (κ × β) → List (κ × β)
  | [] => [(key, value)]
  | (k, v) :: rest =>
    match KeyOrder.cmp key k with
    | .lt => (key, value) :: (k, v) :: rest
    | .eq => (key, value) :: rest
    | .gt => (k, v) :: insertInto key value rest

theorem mem_insertInto {key : κ} {value : β} {entry : κ × β} {entries : List (κ × β)}
    (h : entry ∈ insertInto key value entries) : entry = (key, value) ∨ entry ∈ entries := by
  induction entries with
  | nil => exact Or.inl (List.mem_singleton.mp h)
  | cons head rest ih =>
      obtain ⟨k, v⟩ := head
      simp only [insertInto] at h
      cases hc : KeyOrder.cmp key k with
      | lt =>
          rw [hc] at h
          rcases List.mem_cons.mp h with he | he
          · exact Or.inl he
          · exact Or.inr he
      | eq =>
          rw [hc] at h
          rcases List.mem_cons.mp h with he | he
          · exact Or.inl he
          · exact Or.inr (List.mem_cons_of_mem _ he)
      | gt =>
          rw [hc] at h
          rcases List.mem_cons.mp h with he | he
          · exact Or.inr (he ▸ List.mem_cons_self)
          · rcases ih he with hi | hi
            · exact Or.inl hi
            · exact Or.inr (List.mem_cons_of_mem _ hi)

theorem insertInto_ordered (key : κ) (value : β) {entries : List (κ × β)}
    (h : entries.Pairwise (fun a b => KeyOrder.cmp a.1 b.1 = .lt)) :
    (insertInto key value entries).Pairwise (fun a b => KeyOrder.cmp a.1 b.1 = .lt) := by
  induction entries with
  | nil => exact List.pairwise_singleton _ _
  | cons head rest ih =>
      obtain ⟨k, v⟩ := head
      obtain ⟨hhead, hrest⟩ := List.pairwise_cons.mp h
      simp only [insertInto]
      cases hc : KeyOrder.cmp key k with
      | lt =>
          refine List.pairwise_cons.mpr ⟨fun e he => ?_, h⟩
          rcases List.mem_cons.mp he with rfl | he
          · exact hc
          · exact Std.TransCmp.lt_trans hc (hhead e he)
      | eq =>
          refine List.pairwise_cons.mpr ⟨fun e he => ?_, hrest⟩
          exact Std.TransCmp.lt_of_eq_of_lt hc (hhead e he)
      | gt =>
          refine List.pairwise_cons.mpr ⟨fun e he => ?_, ih hrest⟩
          rcases mem_insertInto he with rfl | he
          · exact Std.OrientedCmp.lt_of_gt hc
          · exact hhead e he

/-- Store a value under a key, in place of whatever the key held. -/
def insert (table : Table κ β) (key : κ) (value : β) : Table κ β :=
  ⟨insertInto key value table.entries, insertInto_ordered key value table.ordered⟩

/-- The entries that satisfy a condition. -/
def filter (keep : κ → β → Bool) (table : Table κ β) : Table κ β :=
  ⟨table.entries.filter (fun e => keep e.1 e.2), table.ordered.filter _⟩

/-- The table without a key. -/
def erase (table : Table κ β) (key : κ) : Table κ β :=
  table.filter (fun k _ => KeyOrder.cmp key k != .eq)

/-- Change every value, keeping the keys. -/
def mapValues (f : κ → β → γ) (table : Table κ β) : Table κ γ :=
  ⟨table.entries.map (fun e => (e.1, f e.1 e.2)),
    List.pairwise_map.mpr (table.ordered.imp fun h => h)⟩

/-- The keys, in order. -/
def keys (table : Table κ β) : List κ := table.entries.map (·.1)

/-- The values, in key order. -/
def values (table : Table κ β) : List β := table.entries.map (·.2)

/-- How many keys there are. -/
def size (table : Table κ β) : Nat := table.entries.length

/-- Whether there is no key. -/
def isEmpty (table : Table κ β) : Bool := table.entries.isEmpty

/-- A table over the given entries: of two entries for one key the later stays. -/
def ofList (entries : List (κ × β)) : Table κ β :=
  entries.foldl (fun table e => table.insert e.1 e.2) empty

/-- Every entry of `upper`, and those of `lower` for the other keys. -/
def mergeOver (upper lower : Table κ β) : Table κ β :=
  upper.entries.foldl (fun table e => table.insert e.1 e.2) lower

theorem ext {a b : Table κ β} (h : a.entries = b.entries) : a = b := by
  cases a
  cases b
  cases h
  rfl

instance [DecidableEq κ] [DecidableEq β] : DecidableEq (Table κ β) := fun a b =>
  if h : a.entries = b.entries then isTrue (ext h) else isFalse (fun e => h (congrArg entries e))

/-- The empty table holds nothing. -/
theorem get?_empty (key : κ) : (empty : Table κ β).get? key = none := rfl

theorem lookup_insertInto (key other : κ) (value : β) (entries : List (κ × β)) :
    lookup other (insertInto key value entries)
      = if KeyOrder.cmp other key = .eq then some value else lookup other entries := by
  induction entries with
  | nil => rfl
  | cons head rest ih =>
      obtain ⟨k, v⟩ := head
      simp only [insertInto]
      cases hc : KeyOrder.cmp key k with
      | lt => rfl
      | eq =>
          obtain rfl := Std.LawfulEqCmp.eq_of_compare hc
          simp only [lookup]
          by_cases ho : KeyOrder.cmp other key = .eq
          · rw [if_pos ho, if_pos ho]
          · rw [if_neg ho, if_neg ho, if_neg ho]
      | gt =>
          simp only [lookup, ih]
          by_cases ho : KeyOrder.cmp other k = .eq
          · obtain rfl := Std.LawfulEqCmp.eq_of_compare ho
            have hne : KeyOrder.cmp other key ≠ .eq := by
              intro he
              obtain rfl := Std.LawfulEqCmp.eq_of_compare he
              rw [ho] at hc
              exact absurd hc (by decide)
            rw [if_pos ho, if_neg hne, if_pos ho]
          · rw [if_neg ho, if_neg ho]

/-- After an insertion its key holds the new value and every other key what it held. -/
theorem get?_insert (table : Table κ β) (key other : κ) (value : β) :
    (table.insert key value).get? other
      = if KeyOrder.cmp other key = .eq then some value else table.get? other :=
  lookup_insertInto key other value table.entries

end Table

end DnsZones
