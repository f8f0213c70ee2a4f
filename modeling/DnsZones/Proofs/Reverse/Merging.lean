import DnsZones.Proofs.Builtin.Zones
import DnsZones.Proofs.Reverse.Grouping
import DnsZones.Proofs.Stages

/-!
# Merging Reverse Zones

What becomes of the reverse zones that several zones yield under one name.

The zones are gone through in the order of their names. The first that yields a
reverse zone of a name hands over all of it; those that follow put in their
pointers, as long as nobody has taken the identifier before. Their starts of
authority are passed over. So a derived zone can be looked up one identifier at a
time: every zone that contributes to it has at most one record to put there, and
what is there in the end is what the first of them had to put.

An identifier may well be taken by the start of authority of the first zone, and
may be in use in several zones; in both cases the pointer of the later zone is
lost. Nothing else is, and nothing is made up.

## Main definitions

* `Derivation.reverse?`: What a source yields under a name.
* `Derivation.Contributes`, `Derivation.IsFirst`: Whose records a derived zone holds.
* `Derivation.Puts`: What a contributor has to put under an identifier.
* `Derivation.IsMerged`: What a derived zone is.
* `Builtin.IsNormalized`: A zone that the builtin plugins normalized.

## Theorems

* `Derivation.get?_records_merge`: Merging two zones, one identifier at a time.
* `Derivation.get?_ofZones`: Going through the sources, one name at a time.
* `Derivation.records_iff`: The first to put something under an identifier keeps it.
* `Builtin.ofZones_merges`: What is derived from zones that were normalized.
-/

namespace DnsZones

namespace Derivation

/-! ### Two zones -/

/-- The zone that results from merging one into another. -/
def merged (existing other : Zone) : Zone := (merge existing other.records.entries).1

theorem config_merge (existing : Zone) (records : List (String × Record)) :
    (merge existing records).1.config = existing.config
      ∧ (merge existing records).1.ttl = existing.ttl :=
  merge_induction (motive := fun zone => zone.config = existing.config ∧ zone.ttl = existing.ttl)
    ⟨rfl, rfl⟩ fun _ _ _ hzone _ _ _ => hzone

/-- Records that are merged in one after the other: what was there stays, and otherwise the first
    decides that is no start of authority. -/
theorem get?_records_merge {records : List (String × Record)}
    (ho : records.Pairwise fun a b => KeyOrder.cmp a.1 b.1 = .lt) (existing : Zone)
    (identifier : String) :
    (merge existing records).1.records.get? identifier
      = (existing.records.get? identifier).or
        ((Table.lookup identifier records).filter fun record => record.type ≠ .soa) := by
  induction records generalizing existing with
  | nil => simp only [merge, Table.lookup, Option.filter_none, Option.or_none]
  | cons first rest ih =>
      rcases first with ⟨key, record⟩
      rcases List.pairwise_cons.mp ho with ⟨hfirst, hrest⟩
      unfold merge
      simp only [Table.lookup, Table.cmp_eq_iff]
      by_cases hs : record.type = .soa
      · rw [if_pos hs, ih hrest]
        by_cases hk : identifier = key
        · rw [if_pos hk, hk, Table.lookup_eq_none_of_lt hfirst, Option.filter_some_neg]
          · rfl
          · simp [hs]
        · rw [if_neg hk]
      rw [if_neg hs]
      by_cases hc : existing.records.contains key = true
      · rw [if_pos hc, ih hrest]
        by_cases hk : identifier = key
        · rcases Table.contains_iff.mp hc with ⟨found, hfound⟩
          rw [hk, hfound, Option.some_or, Option.some_or]
        · rw [if_neg hk]
      · rw [if_neg hc, ih hrest, Zone.insert]
        by_cases hk : identifier = key
        · rw [Bool.not_eq_true, Table.contains_eq_false_iff] at hc
          rw [if_pos hk, hk, Table.get?_insert_self, hc, Option.some_or, Option.none_or,
            Option.filter_some_pos]
          simp [hs]
        · rw [if_neg hk, Table.get?_insert_of_ne _ _ hk]

theorem get?_records_merged (existing other : Zone) (identifier : String) :
    (merged existing other).records.get? identifier
      = (existing.records.get? identifier).or
        ((other.records.get? identifier).filter fun record => record.type ≠ .soa) :=
  get?_records_merge other.records.ordered existing identifier

/-! ### Many zones -/

theorem pairwise_yields (source : String) (zone : Zone) :
    (yields source zone).Pairwise fun a b => KeyOrder.cmp a.1 b.1 = .lt := by
  unfold yields
  by_cases hw : isWanted zone = true
  · rw [if_pos hw]
    cases Reverse.derive source zone with
    | error error => exact List.Pairwise.nil
    | ok zones => exact zones.ordered
  · rw [if_neg hw]
    exact List.Pairwise.nil

/-- What a source yields under a name. -/
def reverse? (name source : String) (zone : Zone) : Option Zone :=
  Table.lookup name (yields source zone)

theorem reverse?_eq_some_iff {name source : String} {zone reverse : Zone} :
    reverse? name source zone = some reverse
      ↔ isWanted zone = true ∧ ∃ zones, Reverse.derive source zone = .ok zones
        ∧ zones.get? name = some reverse := by
  rw [← mem_yields_iff]
  exact ⟨Table.mem_of_lookup, Table.lookup_of_mem (pairwise_yields source zone)⟩

theorem get?_joined_self {given derived : Zones} {name : String} {reverse : Zone}
    (h : given.contains name = false) :
    (joined given derived (name, reverse)).get? name
      = (derived.get? name).merge merged (some reverse) := by
  unfold joined
  rw [h, if_neg (by decide)]
  cases derived.get? name with
  | none => exact Table.get?_insert_self _ _ _
  | some existing => exact Table.get?_insert_self _ _ _

theorem get?_joined_of_ne {given derived : Zones} {name : String} {reverse : String × Zone}
    (h : name ≠ reverse.1) : (joined given derived reverse).get? name = derived.get? name := by
  unfold joined
  by_cases hg : given.contains reverse.1 = true
  · rw [if_pos hg]
  · rw [if_neg hg]
    cases derived.get? reverse.1 with
    | none => exact Table.get?_insert_of_ne _ _ h
    | some existing => exact Table.get?_insert_of_ne _ _ h

/-- The zones of one source have different names, so at most one of them comes in under a name. -/
theorem get?_foldl_joined {given derived : Zones} {reverses : List (String × Zone)}
    (ho : reverses.Pairwise fun a b => KeyOrder.cmp a.1 b.1 = .lt) {name : String}
    (h : given.contains name = false) :
    (reverses.foldl (joined given) derived).get? name
      = (derived.get? name).merge merged (Table.lookup name reverses) := by
  induction reverses generalizing derived with
  | nil => exact Option.merge_none_right.symm
  | cons first rest ih =>
      rcases first with ⟨key, reverse⟩
      rcases List.pairwise_cons.mp ho with ⟨hfirst, hrest⟩
      rw [List.foldl_cons, ih hrest, Table.lookup]
      by_cases hk : name = key
      · subst hk
        rw [get?_joined_self h, Table.lookup_eq_none_of_lt hfirst, Option.merge_none_right,
          if_pos (Table.cmp_eq_iff.mpr rfl)]
      · rw [get?_joined_of_ne hk, if_neg fun he => hk (Table.cmp_eq_iff.mp he)]

/-- What is under a name after one more source. -/
def afterSource (name : String) (existing : Option Zone) (source : String × Zone) : Option Zone :=
  existing.merge merged (reverse? name source.1 source.2)

/-- What is derived under a name comes from the sources one after the other. -/
theorem get?_ofZones {given : Zones} {name : String} (h : given.contains name = false) :
    (ofZones given).zones.get? name = given.entries.foldl (afterSource name) none := by
  have hgo : ∀ (sources : List (String × Zone)) (derived : Zones),
      ((sources.flatMap fun e => yields e.1 e.2).foldl (joined given) derived).get? name
        = sources.foldl (afterSource name) (derived.get? name) := by
    intro sources
    induction sources with
    | nil => exact fun derived => rfl
    | cons first rest ih =>
        intro derived
        rw [List.flatMap_cons, List.foldl_append, ih,
          get?_foldl_joined (pairwise_yields first.1 first.2) h, List.foldl_cons]
        rfl
  rw [zones_ofZones]
  exact hgo given.entries Table.empty

/-- What a source has to put under an identifier; a start of authority only the first of all. -/
def put? (name first identifier : String) (source : String × Zone) : Option Record :=
  ((reverse? name source.1 source.2).bind fun reverse => reverse.records.get? identifier).filter
    fun record => source.1 = first ∨ record.type ≠ .soa

/-- After the first source, the others put what they have where nothing is. -/
theorem foldl_afterSource_some {name first : String} {sources : List (String × Zone)}
    (h : ∀ source ∈ sources, source.1 ≠ first) (zone : Zone) :
    ∃ result, sources.foldl (afterSource name) (some zone) = some result
      ∧ result.config = zone.config ∧ result.ttl = zone.ttl
      ∧ ∀ identifier, result.records.get? identifier
        = (zone.records.get? identifier).or (sources.findSome? (put? name first identifier)) := by
  induction sources generalizing zone with
  | nil =>
      refine ⟨zone, rfl, rfl, rfl, fun identifier => ?_⟩
      rw [List.findSome?_nil, Option.or_none]
  | cons source rest ih =>
      rcases List.forall_mem_cons.mp h with ⟨hsource, hrest⟩
      rw [List.foldl_cons]
      cases hr : reverse? name source.1 source.2 with
      | none =>
          have hafter : afterSource name (some zone) source = some zone := by
            rw [afterSource, hr, Option.merge_none_right]
          rcases ih hrest zone with ⟨result, hresult, hconfig, httl, hrecords⟩
          refine ⟨result, by rw [hafter, hresult], hconfig, httl, fun identifier => ?_⟩
          rw [hrecords, List.findSome?_cons, put?, hr]
          rfl
      | some reverse =>
          have hafter : afterSource name (some zone) source = some (merged zone reverse) := by
            rw [afterSource, hr]
            rfl
          rcases ih hrest (merged zone reverse) with ⟨result, hresult, hconfig, httl, hrecords⟩
          have hsame := config_merge zone reverse.records.entries
          refine ⟨result, by rw [hafter, hresult], hconfig.trans hsame.1, httl.trans hsame.2,
            fun identifier => ?_⟩
          have hput : put? name first identifier source
              = (reverse.records.get? identifier).filter fun record => record.type ≠ .soa := by
            simp only [put?, hr, hsource, Option.bind_some, false_or]
          rw [hrecords, get?_records_merged, List.findSome?_cons, hput, Option.or_assoc]
          cases (reverse.records.get? identifier).filter fun record => record.type ≠ .soa with
          | none => rw [Option.none_or]
          | some record => rw [Option.some_or]

/-- Nothing is under a name before the first source that yields a zone of that name. -/
theorem foldl_afterSource_none {name : String} {sources : List (String × Zone)} {result : Zone}
    (h : sources.foldl (afterSource name) none = some result) :
    ∃ before source later reverse, sources = before ++ source :: later
      ∧ (∀ e ∈ before, reverse? name e.1 e.2 = none)
      ∧ reverse? name source.1 source.2 = some reverse
      ∧ later.foldl (afterSource name) (some reverse) = some result := by
  induction sources with
  | nil => cases h
  | cons source rest ih =>
      rw [List.foldl_cons, afterSource, Option.merge_none_left] at h
      cases hr : reverse? name source.1 source.2 with
      | some reverse =>
          rw [hr] at h
          exact ⟨[], source, rest, reverse, rfl, fun e he => (nomatch he), hr, h⟩
      | none =>
          rw [hr] at h
          rcases ih h with ⟨before, other, later, reverse, rfl, hbefore, hother, hlater⟩
          exact ⟨source :: before, other, later, reverse, rfl,
            List.forall_mem_cons.mpr ⟨hr, hbefore⟩, hother, hlater⟩

/-! ### Contributors -/

/-- A zone contributes to a reverse zone: it asks for its reverse zones, and it has an address that
    belongs there. -/
structure Contributes (given : Zones) (name source : String) (zone : Zone) : Prop where
  given : given.get? source = some zone
  wanted : isWanted zone = true
  address : ∃ identifier record address, zone.HasAddress identifier record address
    ∧ address.reverseZone = name

/-- The first contributor in the order of names. -/
structure IsFirst (given : Zones) (name source : String) (zone : Zone) : Prop where
  contributes : Contributes given name source zone
  first : ∀ other found, Contributes given name other found →
    other = source ∨ KeyOrder.cmp source other = .lt

/-- A contributor puts a record under an identifier: the pointer of its address record, or, if it
    comes first, its start of authority under the name of the reverse zone. -/
def Puts (given : Zones) (name source : String) (zone : Zone) (identifier : String)
    (record : Record) : Prop :=
  Contributes given name source zone
    ∧ ((∃ original address, zone.HasAddress identifier original address
        ∧ address.reverseZone = name ∧ record = Reverse.pointerRecord source original address)
      ∨ (IsFirst given name source zone ∧ ∃ authority, zone.IsFirstAuthority identifier authority
        ∧ record = { authority with name := name }))

/-- An earlier contributor puts some record under the identifier. -/
def PutsBefore (given : Zones) (name source identifier : String) : Prop :=
  ∃ earlier zone record, KeyOrder.cmp earlier source = .lt
    ∧ Puts given name earlier zone identifier record

variable {given : Zones} {name source : String} {zone : Zone}

theorem IsFirst.unique {other : String} {found : Zone} (h : IsFirst given name source zone)
    (hother : IsFirst given name other found) : other = source := by
  rcases h.first other found hother.contributes with he | hlt
  · exact he
  rcases hother.first source zone h.contributes with he | hgt
  · exact he.symm
  -- Neither can come before the other.
  rw [Std.OrientedCmp.gt_of_lt hlt] at hgt
  cases hgt

theorem isReverse_of_reverse? {reverse : Zone} (h : reverse? name source zone = some reverse) :
    Reverse.IsReverse source zone name reverse := by
  rcases reverse?_eq_some_iff.mp h with ⟨-, zones, hderive, hreverse⟩
  exact (Reverse.isGrouped_of_deriveAll (Reverse.derive_eq_ok_iff.mp hderive)).zones _ _ hreverse

/-- A zone that can be reversed contributes exactly to the reverse zones that it yields. -/
theorem contributes_iff (hzone : given.get? source = some zone)
    (hcan : Reverse.CanBeReversed zone) :
    Contributes given name source zone ↔ ∃ reverse, reverse? name source zone = some reverse := by
  have hexists : ∃ zones, Reverse.deriveAll source zone = .ok zones :=
    Reverse.exists_deriveAll_iff.mpr hcan
  rcases hexists with ⟨zones, hderive⟩
  have hgrouped := Reverse.isGrouped_of_deriveAll hderive
  simp only [reverse?_eq_some_iff, Reverse.derive_eq_ok_iff, hderive, Except.ok.injEq,
    exists_eq_left', exists_and_left]
  rw [← Table.contains_iff, hgrouped.names]
  exact ⟨fun h => ⟨h.wanted, h.address⟩, fun h => ⟨hzone, h.1, h.2⟩⟩

/-- What a source has to put, in terms of its address records and its start of authority. -/
theorem put?_eq_some_iff (hzone : given.get? source = some zone)
    (hcan : Reverse.CanBeReversed zone) {first identifier : String} {origin : Zone}
    (hfirst : IsFirst given name first origin) {record : Record} :
    put? name first identifier (source, zone) = some record
      ↔ Puts given name source zone identifier record := by
  rw [put?, Option.filter_eq_some_iff, Option.bind_eq_some_iff, decide_eq_true_iff]
  constructor
  · rintro ⟨⟨reverse, hreverse, hget⟩, hallowed⟩
    have hcontributes := (contributes_iff hzone hcan).mpr ⟨reverse, hreverse⟩
    refine ⟨hcontributes, ?_⟩
    rcases ((isReverse_of_reverse? hreverse).records identifier record).mp hget with
      ⟨authority, hauthority, rfl⟩ | hpointer
    · -- Only the first contributor is allowed to put one.
      rcases hallowed with rfl | htype
      · cases hzone.symm.trans hfirst.contributes.given
        exact Or.inr ⟨hfirst, authority, hauthority, rfl⟩
      · exact absurd hauthority.type htype
    · exact Or.inl hpointer
  · rintro ⟨hcontributes, hputs⟩
    rcases (contributes_iff hzone hcan).mp hcontributes with ⟨reverse, hreverse⟩
    have hrecords := (isReverse_of_reverse? hreverse).records identifier record
    rcases hputs with hpointer | ⟨hisFirst, hauthority⟩
    · refine ⟨⟨reverse, hreverse, hrecords.mpr (Or.inr hpointer)⟩, Or.inr ?_⟩
      rcases hpointer with ⟨original, address, -, -, rfl⟩
      exact (by decide : RecordType.ptr ≠ .soa)
    · exact ⟨⟨reverse, hreverse, hrecords.mpr (Or.inl hauthority)⟩, Or.inl (hfirst.unique hisFirst)⟩

/-- A derived zone is what the first contributor yields, with whatever the others have to put. -/
theorem exists_first
    (hcan : ∀ source zone, given.get? source = some zone → Reverse.CanBeReversed zone)
    {result : Zone} (h : (ofZones given).zones.get? name = some result) :
    ∃ first origin reverse, IsFirst given name first origin
      ∧ reverse? name first origin = some reverse
      ∧ result.config = reverse.config ∧ result.ttl = reverse.ttl
      ∧ ∀ identifier, result.records.get? identifier
        = given.entries.findSome? (put? name first identifier) := by
  have hgiven := (contains_ofZones_iff.mp (Table.contains_iff.mpr ⟨result, h⟩)).1
  rw [get?_ofZones hgiven] at h
  rcases foldl_afterSource_none h with
    ⟨before, ⟨first, origin⟩, later, reverse, hentries, hbefore, hreverse, hlater⟩
  have hordered := given.ordered
  rw [hentries, List.pairwise_append, List.pairwise_cons] at hordered
  have hne : ∀ e ∈ later, e.1 ≠ first := fun e he heq => by
    have hlt := hordered.2.1.1 e he
    rw [heq] at hlt
    exact Table.cmp_self_ne_lt first hlt
  have horigin : given.get? first = some origin := by
    rw [Table.get?_eq_some_iff, hentries]
    exact List.mem_append_right _ List.mem_cons_self
  rcases foldl_afterSource_some hne reverse with ⟨found, hfound, hconfig, httl, hrecords⟩
  cases hlater.symm.trans hfound
  have hcontributes := (contributes_iff horigin (hcan _ _ horigin)).mpr ⟨reverse, hreverse⟩
  refine ⟨first, origin, reverse, ⟨hcontributes, fun other zone hother => ?_⟩, hreverse, hconfig,
    httl, fun identifier => ?_⟩
  · -- Any other contributor comes later.
    rcases (contributes_iff hother.given (hcan _ _ hother.given)).mp hother with ⟨yielded, hyielded⟩
    have hm := Table.get?_eq_some_iff.mp hother.given
    rw [hentries, List.mem_append, List.mem_cons] at hm
    rcases hm with hm | he | hm
    · rw [hbefore _ hm] at hyielded
      cases hyielded
    · exact Or.inl (congrArg Prod.fst he)
    · exact Or.inr (hordered.2.1.1 _ hm)
  · have hnothing : before.findSome? (put? name first identifier) = none := by
      refine List.findSome?_eq_none_iff.mpr fun e he => ?_
      rw [put?, hbefore e he]
      rfl
    have hput : put? name first identifier (first, origin) = reverse.records.get? identifier := by
      simp only [put?, hreverse, Option.bind_some, true_or, decide_true]
      cases reverse.records.get? identifier with
      | none => rfl
      | some record => rfl
    rw [hrecords, hentries, List.findSome?_append, hnothing, Option.none_or, List.findSome?_cons,
      hput]
    cases reverse.records.get? identifier with
    | none => rw [Option.none_or]
    | some record => rw [Option.some_or]

/-- The first contributor to put something under an identifier has its record kept there. -/
theorem records_iff
    (hcan : ∀ source zone, given.get? source = some zone → Reverse.CanBeReversed zone)
    {result : Zone} (h : (ofZones given).zones.get? name = some result) {identifier : String}
    {record : Record} :
    result.records.get? identifier = some record
      ↔ ∃ source zone, Puts given name source zone identifier record
        ∧ ¬PutsBefore given name source identifier := by
  rcases exists_first hcan h with ⟨first, origin, reverse, hfirst, -, -, -, hrecords⟩
  rw [hrecords, Table.findSome?_entries_eq_some_iff]
  constructor
  · rintro ⟨source, zone, hzone, hput, hnone⟩
    refine ⟨source, zone, (put?_eq_some_iff hzone (hcan _ _ hzone) hfirst).mp hput, ?_⟩
    rintro ⟨earlier, found, other, hlt, hputs⟩
    have hfound := hputs.1.given
    have hsome := (put?_eq_some_iff hfound (hcan _ _ hfound) hfirst).mpr hputs
    rw [hnone earlier found hfound hlt] at hsome
    cases hsome
  · rintro ⟨source, zone, hputs, hbefore⟩
    have hzone := hputs.1.given
    refine ⟨source, zone, hzone, (put?_eq_some_iff hzone (hcan _ _ hzone) hfirst).mpr hputs,
      fun earlier found hfound hlt => ?_⟩
    refine Option.eq_none_iff_forall_ne_some.mpr fun other hother => ?_
    exact hbefore ⟨earlier, found, other, hlt,
      (put?_eq_some_iff hfound (hcan _ _ hfound) hfirst).mp hother⟩

/-- If a contributor puts something under an identifier, either nobody did before and that is kept,
    or somebody did and what the first of them put is kept. -/
theorem kept_of_puts
    (hcan : ∀ source zone, given.get? source = some zone → Reverse.CanBeReversed zone)
    {result : Zone} (h : (ofZones given).zones.get? name = some result) {identifier : String}
    {record : Record} (hputs : Puts given name source zone identifier record) :
    (¬PutsBefore given name source identifier ∧ result.records.get? identifier = some record)
      ∨ ∃ earlier found kept, KeyOrder.cmp earlier source = .lt
        ∧ Puts given name earlier found identifier kept
        ∧ ¬PutsBefore given name earlier identifier
        ∧ result.records.get? identifier = some kept := by
  by_cases hbefore : PutsBefore given name source identifier
  · refine Or.inr ?_
    cases hget : result.records.get? identifier with
    | none =>
        -- The identifier is not free, since somebody puts something there.
        rcases exists_first hcan h with ⟨first, origin, reverse, hfirst, -, -, -, hrecords⟩
        have hzone := hputs.1.given
        rw [hrecords, List.findSome?_eq_none_iff] at hget
        have hnone := hget _ (Table.get?_eq_some_iff.mp hzone)
        rw [(put?_eq_some_iff hzone (hcan _ _ hzone) hfirst).mpr hputs] at hnone
        cases hnone
    | some kept =>
        rcases (records_iff hcan h).mp hget with ⟨earlier, found, hkept, hnot⟩
        refine ⟨earlier, found, kept, ?_, hkept, hnot, rfl⟩
        cases hcmp : KeyOrder.cmp earlier source with
        | lt => rfl
        | eq => exact absurd (Table.cmp_eq_iff.mp hcmp ▸ hbefore) hnot
        | gt => exact absurd ⟨source, zone, record, Std.OrientedCmp.lt_of_gt hcmp, hputs⟩ hnot
  · exact Or.inl ⟨hbefore, (records_iff hcan h).mpr ⟨source, zone, hputs, hbefore⟩⟩

/-- What a derived zone is. -/
structure IsMerged (given : Zones) (name : String) (result : Zone) : Prop where
  /-- The first contributor gives the configuration, the time to live and the only start of
      authority, which keeps its identifier. -/
  first : ∃ source zone identifier authority, IsFirst given name source zone
    ∧ result.config = zone.config ∧ result.ttl = zone.ttl
    ∧ zone.recordsOf .soa = [(identifier, authority)]
    ∧ result.recordsOf .soa = [(identifier, { authority with name := name })]
  /-- Every other record is the pointer of an address record of a contributor. -/
  pointers : ∀ identifier record, result.records.get? identifier = some record →
    record.type ≠ .soa →
    ∃ source zone original address, Contributes given name source zone
      ∧ zone.HasAddress identifier original address ∧ address.reverseZone = name
      ∧ record = Reverse.pointerRecord source original address
  /-- The pointer of an address record is kept if no earlier contributor puts a record under its
      identifier, and otherwise the record of the first that does. -/
  kept : ∀ source zone identifier original address, Contributes given name source zone →
    zone.HasAddress identifier original address → address.reverseZone = name →
    (¬PutsBefore given name source identifier
      ∧ result.records.get? identifier
        = some (Reverse.pointerRecord source original address))
    ∨ ∃ earlier found record, KeyOrder.cmp earlier source = .lt
      ∧ Puts given name earlier found identifier record
      ∧ ¬PutsBefore given name earlier identifier
      ∧ result.records.get? identifier = some record

/-- The start of authority of the first contributor is kept, and no other is. -/
theorem recordsOf_soa
    (hcan : ∀ source zone, given.get? source = some zone → Reverse.CanBeReversed zone)
    {result : Zone} (h : (ofZones given).zones.get? name = some result)
    (hfirst : IsFirst given name source zone) {identifier : String} {authority : Record}
    (hauthority : zone.IsFirstAuthority identifier authority) :
    result.recordsOf .soa = [(identifier, { authority with name := name })] := by
  refine Zone.recordsOf_eq_singleton ?_ hauthority.type fun other record hget htype => ?_
  · -- Nobody puts anything before the first contributor.
    refine (records_iff hcan h).mpr ⟨source, zone,
      ⟨hfirst.contributes, Or.inr ⟨hfirst, authority, hauthority, rfl⟩⟩, ?_⟩
    rintro ⟨earlier, found, record, hlt, hcontributes, -⟩
    rcases hfirst.first earlier found hcontributes with rfl | hgt
    · exact Table.cmp_self_ne_lt earlier hlt
    · rw [Std.OrientedCmp.gt_of_lt hgt] at hlt
      cases hlt
  · rcases (records_iff hcan h).mp hget with
      ⟨earlier, found, ⟨hcontributes, hpointer | ⟨hisFirst, original, horiginal, -⟩⟩, -⟩
    · rcases hpointer with ⟨_, _, -, -, rfl⟩
      exact absurd htype (by decide : RecordType.ptr ≠ .soa)
    · cases hfirst.unique hisFirst
      cases hcontributes.given.symm.trans hfirst.contributes.given
      exact (hauthority.unique horiginal).1

theorem isMerged_of_ofZones
    (hcan : ∀ source zone, given.get? source = some zone → Reverse.CanBeReversed zone)
    (hsingle : ∀ source zone, given.get? source = some zone →
      ∃ identifier authority, zone.recordsOf .soa = [(identifier, authority)])
    {result : Zone} (h : (ofZones given).zones.get? name = some result) :
    IsMerged given name result := by
  constructor
  · rcases exists_first hcan h with ⟨first, origin, reverse, hfirst, hreverse, hconfig, httl, -⟩
    rcases hsingle first origin hfirst.contributes.given with ⟨identifier, authority, hsoa⟩
    have hisReverse := isReverse_of_reverse? hreverse
    exact ⟨first, origin, identifier, authority, hfirst, hconfig.trans hisReverse.config,
      httl.trans hisReverse.ttl, hsoa,
      recordsOf_soa hcan h hfirst (Zone.isFirstAuthority_of_cons hsoa)⟩
  · intro identifier record hget htype
    rcases (records_iff hcan h).mp hget with
      ⟨source, zone, ⟨hcontributes, hpointer | ⟨-, authority, hauthority, rfl⟩⟩, -⟩
    · rcases hpointer with ⟨original, address, ha, hname, hrecord⟩
      exact ⟨source, zone, original, address, hcontributes, ha, hname, hrecord⟩
    · exact absurd hauthority.type htype
  · intro source zone identifier original address hcontributes ha hname
    exact kept_of_puts hcan h ⟨hcontributes, Or.inl ⟨original, address, ha, hname, rfl⟩⟩

end Derivation

namespace Builtin

/-- A zone that the builtin plugins normalized, on whatever host and with whatever defaults. -/
def IsNormalized (name : String) (zone : Zone) : Prop :=
  ∃ timeout defaults start source state after,
    (engine timeout defaults start).normalizeZone name source state = (.ok zone, after)

/-- A zone with one start of authority and nothing but addresses in its address records can be
    reversed. -/
theorem canBeReversed_of_zoneIsSound {name : String} {zone : Zone} (h : ZoneIsSound name zone) :
    Reverse.CanBeReversed zone := by
  refine ⟨fun identifier record hr ht => ?_, fun _ => ?_⟩
  · rcases (h.records identifier record hr).address ht with ⟨value, address, hdata, ha⟩
    exact ⟨address, value, hdata, ha⟩
  · rcases h.authority with ⟨identifier, authority, hsoa⟩
    have hfirst := Zone.isFirstAuthority_of_cons hsoa
    exact ⟨identifier, authority, hfirst.present, hfirst.type⟩

/-- Reverse zones are derived from zones that were normalized. -/
theorem isNormalized_of_passGiven {timeout : Duration} {defaults : Option Config} {zones : Zones}
    {host : Host} {name : String} {zone : Zone}
    (h : ((engine timeout defaults host).passGiven zones host).1.zones.get? name = some zone) :
    IsNormalized name zone := by
  rcases Engine.passGiven_get?_iff.mp h with ⟨source, hm⟩
  rcases Engine.result_of_mem_answers hm with ⟨before, hb⟩
  exact ⟨timeout, defaults, host, source, before, _, Prod.ext hb rfl⟩

/-- What is derived from zones that the builtin plugins normalized: a reverse zone for every name
    that an address belongs to and that is not given itself. The first contributor gives all but
    the pointers, and of several records for one identifier the first is kept. -/
theorem ofZones_merges {given : Zones}
    (h : ∀ source zone, given.get? source = some zone → IsNormalized source zone) :
    (∀ name, (Derivation.ofZones given).zones.contains name = true
      ↔ given.contains name = false ∧ ∃ source zone, Derivation.Contributes given name source zone)
    ∧ ∀ name result, (Derivation.ofZones given).zones.get? name = some result →
      Derivation.IsMerged given name result := by
  have hsound : ∀ source zone, given.get? source = some zone → ZoneIsSound source zone := by
    intro source zone hzone
    rcases h source zone hzone with ⟨timeout, defaults, start, origin, state, after, hn⟩
    exact zoneIsSound_of_normalizeZone hn
  have hcan : ∀ source zone, given.get? source = some zone → Reverse.CanBeReversed zone :=
    fun source zone hzone => canBeReversed_of_zoneIsSound (hsound source zone hzone)
  refine ⟨fun name => ?_, fun name result hresult => ?_⟩
  · rw [Derivation.contains_ofZones_iff]
    refine and_congr_right fun _ => ?_
    constructor
    · rintro ⟨source, zone, reverse, hzone, hyield⟩
      have hreverse := Derivation.reverse?_eq_some_iff.mpr (Derivation.mem_yields_iff.mp hyield)
      exact ⟨source, zone,
        (Derivation.contributes_iff hzone (hcan source zone hzone)).mpr ⟨reverse, hreverse⟩⟩
    · rintro ⟨source, zone, hcontributes⟩
      have hzone := hcontributes.given
      rcases (Derivation.contributes_iff hzone (hcan source zone hzone)).mp hcontributes
        with ⟨reverse, hreverse⟩
      exact ⟨source, zone, reverse, hzone,
        Derivation.mem_yields_iff.mpr (Derivation.reverse?_eq_some_iff.mp hreverse)⟩
  · exact Derivation.isMerged_of_ofZones hcan (fun source zone hzone =>
      (hsound source zone hzone).authority) hresult

end Builtin

/-! ### A name in two zones -/

namespace Siblings

open Builtin

/-- A zone with one host that asks for its reverse zones. -/
def zone (address : String) : Zone where
  config := some { generateReverse := true }
  records := .ofList [
    ("host", { Record.ofValue .a ⟨address, none⟩ with name := "host" }),
    ("start", .ofValues .soa [⟨"ns1.example.com.", none⟩, ⟨"hostmaster@example.com", none⟩,
      ⟨"7", none⟩, ⟨"3600", none⟩, ⟨"600", none⟩, ⟨"86400", none⟩, ⟨"300", none⟩])]

/-- Two zones with hosts of one name that are neighbours. -/
def given : Zones :=
  ((engine Serial.defaultTimeout none {}).passGiven
    (.ofList [("example.com.", zone "1.2.3.4"), ("example.org.", zone "1.2.3.5")]) {}).1.zones

/-- The reverse zone that they share is merged from the two. -/
theorem ofZones_merges_siblings :
    (∀ source zone, given.get? source = some zone → IsNormalized source zone)
      ∧ given.keys = ["example.com.", "example.org."]
      ∧ ∃ result, (Derivation.ofZones given).zones.get? "3.2.1.in-addr.arpa." = some result
        ∧ Derivation.IsMerged given "3.2.1.in-addr.arpa." result := by
  have hgiven : ∀ source zone, given.get? source = some zone → IsNormalized source zone :=
    fun _ _ hzone => isNormalized_of_passGiven hzone
  have hderived : ((Derivation.ofZones given).zones.get? "3.2.1.in-addr.arpa.").isSome = true := by
    decide
  rcases Option.isSome_iff_exists.mp hderived with ⟨result, hresult⟩
  exact ⟨hgiven, by decide, result, hresult, (ofZones_merges hgiven).2 _ result hresult⟩

end Siblings

end DnsZones
