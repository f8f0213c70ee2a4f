import DnsZones.Proofs.Address
import DnsZones.Proofs.Derivation
import DnsZones.Proofs.Zone

/-!
# Grouping Addresses

What the reverse zones of one zone are.

The pointers of a zone are made one by one, in the order of the address records,
and every one is put into a zone that is made when it is first needed. Only when
all of them are in place does the start of authority follow, so it might take a
pointer's place. It does not: a pointer has the identifier of its address record,
the start of authority has its own, and in the table of the zone that they come
from the two are different. For the same reason no pointer takes the place of
another. So nothing is lost, and what comes out can be read off the address
records without following the loop.

## Main definitions

* `Record.HasAddress`, `Zone.HasAddress`: The addresses of a record and of a zone.
* `Zone.IsFirstAuthority`: The start of authority that is copied.
* `Reverse.pointerRecord`: The record that leads back from an address.
* `Reverse.CanBeReversed`: A zone that has reverse zones.
* `Reverse.IsGrouped`: What they are.

## Theorems

* `Reverse.pointers_eq_ok_iff`: One pointer for each address record.
* `Reverse.isPlaced_foldl_place`: What is in the zones before the start of authority.
* `Reverse.derive_groups`: Which zones can be reversed, and what comes out.
-/

namespace DnsZones

/-- A record has one value, which is an address. -/
def Record.HasAddress (record : Record) (address : IPv4) : Prop :=
  ∃ value, record.data = .single value ∧ IPv4.ofString? value.text = some address

theorem Record.HasAddress.unique {record : Record} {a b : IPv4} (ha : record.HasAddress a)
    (hb : record.HasAddress b) : a = b := by
  rcases ha with ⟨value, hdata, ha⟩
  rcases hb with ⟨other, hother, hb⟩
  rw [hdata, RecordData.single.injEq] at hother
  subst hother
  exact Option.some.inj (ha.symm.trans hb)

namespace Zone

/-- An address record of a zone, with its address. -/
structure HasAddress (zone : Zone) (identifier : String) (record : Record) (address : IPv4) :
    Prop where
  present : zone.records.get? identifier = some record
  type : record.type = .a
  value : record.HasAddress address

/-- The start of authority of a zone whose identifier comes before those of all others. -/
structure IsFirstAuthority (zone : Zone) (identifier : String) (authority : Record) : Prop where
  present : zone.records.get? identifier = some authority
  type : authority.type = .soa
  first : ∀ other found, zone.records.get? other = some found → found.type = .soa →
    other = identifier ∨ KeyOrder.cmp identifier other = .lt

variable {zone : Zone} {identifier : String} {authority : Record}

theorem IsFirstAuthority.unique {other : String} {found : Record}
    (h : zone.IsFirstAuthority identifier authority) (hother : zone.IsFirstAuthority other found) :
    other = identifier ∧ found = authority := by
  have hsame : other = identifier := by
    rcases h.first other found hother.present hother.type with he | hlt
    · exact he
    rcases hother.first identifier authority h.present h.type with he | hgt
    · exact he.symm
    -- Neither can come before the other.
    rw [Std.OrientedCmp.gt_of_lt hlt] at hgt
    cases hgt
  subst hsame
  exact ⟨rfl, Option.some.inj (hother.present.symm.trans h.present)⟩

theorem pairwise_recordsOf (zone : Zone) (type : RecordType) :
    (zone.recordsOf type).Pairwise fun a b => KeyOrder.cmp a.1 b.1 = .lt :=
  zone.records.ordered.filter _

/-- The records of one type have different identifiers. -/
theorem nodup_recordsOf (zone : Zone) (type : RecordType) :
    ((zone.recordsOf type).map (·.1)).Nodup :=
  Table.nodup_keys (zone.records.filter fun _ (record : Record) => record.type == type)

/-- The first start of authority is the one that is listed first. -/
theorem isFirstAuthority_of_cons {rest : List (String × Record)}
    (h : zone.recordsOf .soa = (identifier, authority) :: rest) :
    zone.IsFirstAuthority identifier authority := by
  have hm : (identifier, authority) ∈ zone.recordsOf .soa := by
    rw [h]
    exact List.mem_cons_self
  have hordered := zone.pairwise_recordsOf .soa
  rw [h, List.pairwise_cons] at hordered
  refine ⟨(mem_recordsOf_iff.mp hm).1, (mem_recordsOf_iff.mp hm).2, fun other found ho ht => ?_⟩
  have hlisted := mem_recordsOf_iff.mpr ⟨ho, ht⟩
  rw [h] at hlisted
  rcases List.mem_cons.mp hlisted with he | hrest
  · exact Or.inl (congrArg Prod.fst he)
  · exact Or.inr (hordered.1 _ hrest)

end Zone

namespace Reverse

variable {name : String} {source : Zone}

/-! ### Pointers -/

/-- The record that leads back from an address of a zone: the name is the last octet, and the
    value is where it leads. -/
def pointerRecord (name : String) (record : Record) (address : IPv4) : Record where
  name := Numeral.decimal address.fourth.toNat
  type := .ptr
  classText := none
  ttl := none
  data := .single { text := pointerTarget record.name name, comment := none }

/-- A pointer is made for a record that has an address, and for no other. -/
theorem pointer_eq_ok_iff {identifier : String} {record : Record} {made : Pointer} :
    pointer name identifier record = .ok made
      ↔ ∃ address, record.HasAddress address
        ∧ made = ⟨address.reverseZone, identifier, pointerRecord name record address⟩ := by
  unfold pointer Record.single? Record.HasAddress
  cases record.data with
  | multi values => simp only [reduceCtorEq, false_and, exists_false]
  | single value =>
      simp only [RecordData.single.injEq, exists_eq_left', ← checkIPv4_eq_ok_iff]
      cases checkIPv4 value.text with
      | error cause => simp only [reduceCtorEq, false_and, exists_false]
      | ok address =>
          simp only [Except.ok.injEq, exists_eq_left', eq_comm (a := made)]
          rfl

/-- Records have pointers if each of them has one, and these are the pointers. -/
theorem pointers_eq_ok_iff {entries : List (String × Record)} {made : List Pointer} :
    pointers name entries = .ok made
      ↔ List.Forall₂ (fun e p => pointer name e.1 e.2 = .ok p) entries made := by
  induction entries generalizing made with
  | nil => rw [pointers, List.forall₂_nil_left_iff, Except.ok.injEq, eq_comm]
  | cons first rest ih =>
      rcases first with ⟨identifier, record⟩
      rw [pointers, List.forall₂_cons_left_iff]
      cases pointer name identifier record with
      | error error => simp only [reduceCtorEq, false_and, exists_false]
      | ok p =>
          cases hr : pointers name rest with
          | error error =>
              simp only [Except.map, reduceCtorEq, ← ih, hr, false_and, and_false, exists_false]
          | ok others =>
              simp only [Except.map, ← ih, hr, Except.ok.injEq, exists_and_left,
                exists_eq_left', eq_comm (a := made)]

theorem exists_pointers_iff {entries : List (String × Record)} :
    (∃ made, pointers name entries = .ok made)
      ↔ ∀ e ∈ entries, ∃ address, e.2.HasAddress address := by
  simp only [pointers_eq_ok_iff]
  constructor
  · rintro ⟨made, hmade⟩ e he
    induction hmade with
    | nil => cases he
    | cons hp _ ih =>
        rcases List.mem_cons.mp he with rfl | hm
        · rcases pointer_eq_ok_iff.mp hp with ⟨address, ha, -⟩
          exact ⟨address, ha⟩
        · exact ih hm
  · intro h
    induction entries with
    | nil => exact ⟨[], .nil⟩
    | cons first rest ih =>
        rcases h first List.mem_cons_self with ⟨address, ha⟩
        rcases ih fun e he => h e (List.mem_cons_of_mem _ he) with ⟨made, hmade⟩
        exact ⟨_, .cons (pointer_eq_ok_iff.mpr ⟨address, ha, rfl⟩) hmade⟩

theorem mem_pointers_iff {entries : List (String × Record)} {made : List Pointer}
    (h : pointers name entries = .ok made) {p : Pointer} :
    p ∈ made ↔ ∃ e ∈ entries, pointer name e.1 e.2 = .ok p := by
  rw [pointers_eq_ok_iff] at h
  induction h with
  | nil => simp only [List.not_mem_nil, false_and, exists_false]
  | cons hp _ ih =>
      rw [List.mem_cons, ih, List.exists_mem_cons_iff, hp, Except.ok.injEq, eq_comm]

/-- Pointers have the identifiers of their records. -/
theorem identifiers_of_pointers {entries : List (String × Record)} {made : List Pointer}
    (h : pointers name entries = .ok made) :
    made.map (·.identifier) = entries.map (·.1) := by
  rw [pointers_eq_ok_iff] at h
  induction h with
  | nil => rfl
  | cons hp _ ih =>
      rcases pointer_eq_ok_iff.mp hp with ⟨address, -, rfl⟩
      rw [List.map_cons, List.map_cons, ih]

/-- The pointers of a zone, by the address records that they are made for. -/
theorem mem_pointers_recordsOf_iff {made : List Pointer}
    (h : pointers name (source.recordsOf .a) = .ok made) {reverse identifier : String}
    {record : Record} :
    ⟨reverse, identifier, record⟩ ∈ made
      ↔ ∃ original address, source.HasAddress identifier original address
        ∧ address.reverseZone = reverse ∧ record = pointerRecord name original address := by
  rw [mem_pointers_iff h]
  constructor
  · rintro ⟨⟨found, original⟩, he, hp⟩
    rcases pointer_eq_ok_iff.mp hp with ⟨address, ha, hmade⟩
    rcases Zone.mem_recordsOf_iff.mp he with ⟨hpresent, htype⟩
    cases hmade
    exact ⟨original, address, ⟨hpresent, htype, ha⟩, rfl, rfl⟩
  · rintro ⟨original, address, ⟨hpresent, htype, ha⟩, rfl, rfl⟩
    exact ⟨(identifier, original), Zone.mem_recordsOf_iff.mpr ⟨hpresent, htype⟩,
      pointer_eq_ok_iff.mpr ⟨address, ha, rfl⟩⟩

/-! ### Placing -/

/-- Pointers are in the zones where they belong, and nothing else is anywhere. -/
structure IsPlaced (source : Zone) (made : List Pointer) (zones : Zones) : Prop where
  names : ∀ reverse, zones.contains reverse = true ↔ ∃ p ∈ made, p.zone = reverse
  zones : ∀ reverse zone, zones.get? reverse = some zone →
    zone.config = source.config ∧ zone.ttl = source.ttl
      ∧ ∀ identifier record, zone.records.get? identifier = some record
        ↔ ⟨reverse, identifier, record⟩ ∈ made

/-- The zone that a pointer goes to is there already, or it is a blank one. -/
theorem IsPlaced.target {made : List Pointer} {zones : Zones} (h : IsPlaced source made zones)
    (reverse : String) :
    ((zones.get? reverse).getD (blank source)).config = source.config
      ∧ ((zones.get? reverse).getD (blank source)).ttl = source.ttl
      ∧ ∀ identifier record,
        ((zones.get? reverse).getD (blank source)).records.get? identifier = some record
          ↔ ⟨reverse, identifier, record⟩ ∈ made := by
  cases hz : zones.get? reverse with
  | some existing => exact h.zones reverse existing hz
  | none =>
      refine ⟨rfl, rfl, fun identifier record => iff_of_false (fun hr => nomatch hr) fun hm => ?_⟩
      have hc := (h.names reverse).mpr ⟨_, hm, rfl⟩
      rw [Table.contains, hz] at hc
      cases hc

/-- One more pointer, under an identifier of its own, takes its place beside the others. -/
theorem IsPlaced.place {made : List Pointer} {zones : Zones} (h : IsPlaced source made zones)
    {p : Pointer} (hnew : ∀ other ∈ made, other.identifier ≠ p.identifier) :
    IsPlaced source (made ++ [p]) (Reverse.place source zones p) := by
  have htarget := h.target p.zone
  unfold Reverse.place
  generalize (zones.get? p.zone).getD (blank source) = target at htarget ⊢
  rcases htarget with ⟨hconfig, httl, hrecords⟩
  refine ⟨fun reverse => ?_, fun reverse zone hz => ?_⟩
  · rw [Table.contains_insert_iff, h.names]
    simp only [List.mem_append, List.mem_singleton, or_and_right, exists_or, exists_eq_left]
    rw [or_comm, eq_comm]
  by_cases hr : reverse = p.zone
  · subst hr
    rw [Table.get?_insert_self, Option.some.injEq] at hz
    subst hz
    refine ⟨hconfig, httl, fun identifier record => ?_⟩
    rw [List.mem_append, List.mem_singleton, ← hrecords, Zone.insert]
    by_cases hi : identifier = p.identifier
    · -- Nothing was there under the identifier before.
      subst hi
      rw [Table.get?_insert_self, Option.some.injEq, hrecords]
      constructor
      · rintro rfl
        exact Or.inr rfl
      · rintro (hm | he)
        · exact absurd rfl (hnew ⟨p.zone, p.identifier, record⟩ hm)
        · exact (congrArg Pointer.record he).symm
    · rw [Table.get?_insert_of_ne _ _ hi, or_iff_left]
      exact fun he => hi (congrArg Pointer.identifier he)
  · rw [Table.get?_insert_of_ne _ _ hr] at hz
    rcases h.zones reverse zone hz with ⟨hconfig, httl, hrecords⟩
    refine ⟨hconfig, httl, fun identifier record => (hrecords identifier record).trans ?_⟩
    rw [List.mem_append, List.mem_singleton, or_iff_left]
    exact fun he => hr (congrArg Pointer.zone he)

/-- Pointers with identifiers of their own are all placed. -/
theorem isPlaced_foldl_place {made : List Pointer} (h : (made.map (·.identifier)).Nodup) :
    IsPlaced source made (made.foldl (place source) Table.empty) := by
  induction made using List.reverseRecOn with
  | nil =>
      refine ⟨fun reverse => ?_, fun reverse zone hz => nomatch hz⟩
      exact iff_of_false (fun hc => nomatch hc) fun ⟨p, hp, _⟩ => nomatch hp
  | append_singleton made p ih =>
      rw [List.map_append, List.nodup_append'] at h
      rcases h with ⟨hmade, -, hdisjoint⟩
      rw [List.foldl_append]
      refine (ih hmade).place fun other ho he => ?_
      exact hdisjoint (List.mem_map_of_mem ho) (he ▸ List.mem_singleton.mpr rfl)

/-! ### Grouping -/

/-- A zone that has reverse zones: every address record has an address, and if there are any there
    is a start of authority. -/
structure CanBeReversed (source : Zone) : Prop where
  addresses : ∀ identifier record, source.records.get? identifier = some record →
    record.type = .a → ∃ address, record.HasAddress address
  authority : (∃ identifier record, source.records.get? identifier = some record
      ∧ record.type = .a) →
    ∃ identifier record, source.records.get? identifier = some record ∧ record.type = .soa

/-- What a reverse zone of a zone is. -/
structure IsReverse (name : String) (source : Zone) (reverse : String) (zone : Zone) : Prop where
  config : zone.config = source.config
  ttl : zone.ttl = source.ttl
  /-- Its start of authority is the first one of the zone, under the name of the reverse zone. -/
  authority : ∃ identifier authority, source.IsFirstAuthority identifier authority
    ∧ zone.records.get? identifier = some { authority with name := reverse }
  /-- Apart from that, it has the pointers of the addresses that belong to it. -/
  records : ∀ identifier record, zone.records.get? identifier = some record
    ↔ (∃ authority, source.IsFirstAuthority identifier authority
        ∧ record = { authority with name := reverse })
      ∨ ∃ original address, source.HasAddress identifier original address
        ∧ address.reverseZone = reverse ∧ record = pointerRecord name original address

/-- What the reverse zones of a zone are: there is one for each group of neighbours. -/
structure IsGrouped (name : String) (source : Zone) (zones : Zones) : Prop where
  names : ∀ reverse, zones.contains reverse = true
    ↔ ∃ identifier record address, source.HasAddress identifier record address
      ∧ address.reverseZone = reverse
  zones : ∀ reverse zone, zones.get? reverse = some zone → IsReverse name source reverse zone

theorem deriveAll_eq_ok_iff {zones : Zones} :
    deriveAll name source = .ok zones
      ↔ ∃ made, pointers name (source.recordsOf .a) = .ok made
        ∧ ((made = [] ∧ zones = Table.empty)
          ∨ (made ≠ [] ∧ ∃ identifier authority rest,
            source.recordsOf .soa = (identifier, authority) :: rest
              ∧ zones = withAuthority identifier authority
                (made.foldl (place source) Table.empty))) := by
  unfold deriveAll
  cases pointers name (source.recordsOf .a) with
  | error error => simp only [reduceCtorEq, false_and, exists_false]
  | ok made =>
      cases made with
      | nil => simp [eq_comm]
      | cons first rest =>
          cases source.recordsOf .soa with
          | nil => simp
          | cons found others =>
              rcases found with ⟨identifier, authority⟩
              simp [eq_comm]

/-- The start of authority comes in beside the pointers, since no address record has its
    identifier. -/
theorem records_insert_authority {made : List Pointer}
    (hmade : pointers name (source.recordsOf .a) = .ok made) {identifier : String}
    {authority : Record} (hfirst : source.IsFirstAuthority identifier authority) {zone : Zone}
    {reverse : String} (h : ∀ other record, zone.records.get? other = some record
      ↔ ⟨reverse, other, record⟩ ∈ made) (other : String) (record : Record) :
    (zone.insert identifier { authority with name := reverse }).records.get? other = some record
      ↔ (∃ authority, source.IsFirstAuthority other authority
          ∧ record = { authority with name := reverse })
        ∨ ∃ original address, source.HasAddress other original address
          ∧ address.reverseZone = reverse ∧ record = pointerRecord name original address := by
  rw [Zone.insert, ← mem_pointers_recordsOf_iff hmade, ← h]
  by_cases ho : other = identifier
  · subst ho
    rw [Table.get?_insert_self, Option.some.injEq, or_iff_left]
    · constructor
      · rintro rfl
        exact ⟨authority, hfirst, rfl⟩
      · rintro ⟨found, hfound, rfl⟩
        rw [(hfirst.unique hfound).2]
    · -- The record under its identifier is no address record.
      rw [h, mem_pointers_recordsOf_iff hmade]
      rintro ⟨original, address, ha, -⟩
      have htype := hfirst.type
      rw [← Option.some.inj (ha.present.symm.trans hfirst.present), ha.type] at htype
      exact absurd htype (by decide)
  · rw [Table.get?_insert_of_ne _ _ ho, or_iff_right]
    rintro ⟨found, hfound, -⟩
    exact ho (hfirst.unique hfound).1

/-- What is derived are the reverse zones of the zone. -/
theorem isGrouped_of_deriveAll {zones : Zones} (h : deriveAll name source = .ok zones) :
    IsGrouped name source zones := by
  rcases deriveAll_eq_ok_iff.mp h with ⟨made, hmade, hzones⟩
  have hnames : ∀ reverse, (∃ p ∈ made, p.zone = reverse)
      ↔ ∃ identifier record address, source.HasAddress identifier record address
        ∧ address.reverseZone = reverse := by
    intro reverse
    constructor
    · rintro ⟨⟨zone, identifier, record⟩, hm, rfl⟩
      rcases (mem_pointers_recordsOf_iff hmade).mp hm with ⟨original, address, ha, hzone, -⟩
      exact ⟨identifier, original, address, ha, hzone⟩
    · rintro ⟨identifier, record, address, ha, hzone⟩
      exact ⟨_, (mem_pointers_recordsOf_iff hmade).mpr ⟨record, address, ha, hzone, rfl⟩, rfl⟩
  rcases hzones with ⟨rfl, rfl⟩ | ⟨-, identifier, authority, rest, hsoa, rfl⟩
  · refine ⟨fun reverse => ?_, fun reverse zone hz => nomatch hz⟩
    rw [← hnames]
    exact iff_of_false (fun hc => nomatch hc) fun ⟨p, hp, _⟩ => nomatch hp
  have hplaced : IsPlaced source made (made.foldl (place source) Table.empty) := by
    refine isPlaced_foldl_place ?_
    rw [identifiers_of_pointers hmade]
    exact source.nodup_recordsOf .a
  have hfirst := Zone.isFirstAuthority_of_cons hsoa
  refine ⟨fun reverse => ?_, fun reverse zone hz => ?_⟩
  · rw [← hnames, ← hplaced.names, withAuthority, Table.contains, Table.get?_mapValues,
      Option.isSome_map, Table.contains]
  · rw [withAuthority, Table.get?_mapValues, Option.map_eq_some_iff] at hz
    rcases hz with ⟨placed, hz, rfl⟩
    rcases hplaced.zones reverse placed hz with ⟨hconfig, httl, hrecords⟩
    exact ⟨hconfig, httl, ⟨identifier, authority, hfirst, Table.get?_insert_self _ _ _⟩,
      records_insert_authority hmade hfirst hrecords⟩

/-- Which zones can be reversed does not depend on their names. -/
theorem exists_deriveAll_iff :
    (∃ zones, deriveAll name source = .ok zones) ↔ CanBeReversed source := by
  simp only [deriveAll_eq_ok_iff]
  constructor
  · rintro ⟨zones, made, hmade, hzones⟩
    constructor
    · intro identifier record hr ht
      exact exists_pointers_iff.mp ⟨made, hmade⟩ (identifier, record)
        (Zone.mem_recordsOf_iff.mpr ⟨hr, ht⟩)
    · rintro ⟨identifier, record, hr, ht⟩
      rcases hzones with ⟨rfl, -⟩ | ⟨-, found, authority, rest, hsoa, -⟩
      · -- The address record would have a pointer.
        have hlisted := Zone.mem_recordsOf_iff.mpr ⟨hr, ht⟩
        rw [List.map_eq_nil_iff.mp (identifiers_of_pointers hmade).symm] at hlisted
        cases hlisted
      · have hfirst := Zone.isFirstAuthority_of_cons hsoa
        exact ⟨found, authority, hfirst.present, hfirst.type⟩
  · intro h
    have hall : ∀ e ∈ source.recordsOf .a, ∃ address, e.2.HasAddress address := fun e he =>
      h.addresses e.1 e.2 (Zone.mem_recordsOf_iff.mp he).1 (Zone.mem_recordsOf_iff.mp he).2
    rcases exists_pointers_iff.mpr hall with ⟨made, hmade⟩
    cases made with
    | nil => exact ⟨_, [], hmade, Or.inl ⟨rfl, rfl⟩⟩
    | cons first rest =>
        rcases (mem_pointers_recordsOf_iff hmade).mp List.mem_cons_self with ⟨original, _, ha, -, -⟩
        rcases h.authority ⟨_, original, ha.present, ha.type⟩ with ⟨identifier, authority, hs, ht⟩
        cases hsoa : source.recordsOf .soa with
        | nil =>
            have hlisted := Zone.mem_recordsOf_iff.mpr ⟨hs, ht⟩
            rw [hsoa] at hlisted
            cases hlisted
        | cons found others =>
            exact ⟨_, _, hmade, Or.inr ⟨List.cons_ne_nil _ _, found.1, found.2, others, rfl, rfl⟩⟩

/-- Every address record has its pointer in one reverse zone, and in no other. -/
theorem IsGrouped.pointer {zones : Zones} (h : IsGrouped name source zones) {identifier : String}
    {record : Record} {address : IPv4} (ha : source.HasAddress identifier record address) :
    ∃ zone, zones.get? address.reverseZone = some zone
      ∧ zone.records.get? identifier = some (pointerRecord name record address)
      ∧ ∀ reverse other found, zones.get? reverse = some other →
        other.records.get? identifier = some found → reverse = address.reverseZone := by
  have hc := (h.names address.reverseZone).mpr ⟨identifier, record, address, ha, rfl⟩
  rcases Table.contains_iff.mp hc with ⟨zone, hz⟩
  refine ⟨zone, hz, ((h.zones _ zone hz).records _ _).mpr (Or.inr ⟨record, address, ha, rfl, rfl⟩),
    fun reverse other found hr hf => ?_⟩
  rcases ((h.zones reverse other hr).records identifier found).mp hf with
    ⟨authority, hfirst, -⟩ | ⟨original, same, hsame, rfl, -⟩
  · -- The identifier is that of an address record.
    have htype := hfirst.type
    rw [← Option.some.inj (ha.present.symm.trans hfirst.present), ha.type] at htype
    exact absurd htype (by decide)
  · have hrecord : original = record :=
      Option.some.inj (hsame.present.symm.trans ha.present)
    rw [hsame.value.unique (hrecord ▸ ha.value)]

/-- The name of a pointer and the name of its zone spell the address backwards. -/
theorem name_pointerRecord_append (record : Record) (address : IPv4) :
    (pointerRecord name record address).name ++ "." ++ address.reverseZone
      = ".".intercalate (address.octets.reverse.map fun octet => Numeral.decimal octet.toNat)
        ++ ".in-addr.arpa." :=
  IPv4.decimal_append_reverseZone address

/-- The reverse zones of a zone. There are any exactly if every address record has one value that
    is an address, and there is a start of authority unless there is no address record. They are
    then those that the addresses belong to, where neighbours belong to the same; every one has
    the configuration and the time to live of the zone, its first start of authority, and the
    pointers of the addresses that belong to it. Every address record has exactly one pointer,
    and spells its address backwards with the name of the zone that it is in. -/
theorem derive_groups (name : String) (source : Zone) :
    ((∃ zones, derive name source = .ok zones) ↔ CanBeReversed source)
    ∧ (∀ zones, derive name source = .ok zones →
      IsGrouped name source zones
      ∧ ∀ identifier record address, source.HasAddress identifier record address →
        ∃ zone, zones.get? address.reverseZone = some zone
          ∧ zone.records.get? identifier = some (pointerRecord name record address)
          ∧ ∀ reverse other found, zones.get? reverse = some other →
            other.records.get? identifier = some found → reverse = address.reverseZone)
    ∧ (∀ a b : IPv4, a.reverseZone = b.reverseZone ↔ a.network = b.network)
    ∧ ∀ (record : Record) (address : IPv4),
      (pointerRecord name record address).name ++ "." ++ address.reverseZone
        = ".".intercalate (address.octets.reverse.map fun octet => Numeral.decimal octet.toNat)
          ++ ".in-addr.arpa." := by
  simp only [derive_eq_ok_iff]
  refine ⟨exists_deriveAll_iff, fun zones h => ?_, fun _ _ => IPv4.reverseZone_eq_iff,
    name_pointerRecord_append⟩
  exact ⟨isGrouped_of_deriveAll h, fun _ _ _ ha => (isGrouped_of_deriveAll h).pointer ha⟩

end Reverse

end DnsZones
