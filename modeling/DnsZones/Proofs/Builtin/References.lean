import DnsZones.Proofs.Builtin.Zones
import DnsZones.Proofs.Name.Absolute

/-!
# References and Names

What the check of canonical names depends on.

A zone passes the check if each of its canonical names with one value leads to an address
record of the zone. What is compared are names: the zone may be named with a dot at its
end or without, and each of the two texts may be relative or absolute, in any letter case,
or the sign for the zone itself. The verdict depends on nothing but which names have an
address and which names are referred to. So it is the same for a zone in which the same
names are written in other ways, and more addresses or fewer references never spoil it.

All of this comes from one lemma: a verdict carries over from one zone to another, under
names that may differ, if every name that has an address keeps one and every reference was
there before.

## Main definitions

* `Builtin.HoldsAddress`, `Builtin.Refers`: The names that have an address, and those referred to.
* `Builtin.Leads`: Every reference leads to an address.
* `Builtin.IsRespelled`: A record whose name or target is written in another way.
* `Builtin.AreRespelled`: A zone in which any number of records are.

## Theorems

* `Builtin.validateReferences_eq_ok_iff`: What the check compares.
* `Builtin.validateReferences_of_kept`: When a verdict carries over.
* `Builtin.validateReferences_iff_leads`: The check sees names, not spellings.
-/

namespace DnsZones

namespace Builtin

variable {name other : String} {zone later : Zone} {record respelled : Record}

/-- A record is an address record of a zone. -/
def HoldsAddress (zone : Zone) (record : Record) : Prop :=
  ∃ identifier, zone.records.get? identifier = some record ∧ record.type = .a

/-- A text is the target of a canonical name of a zone, one that has one value. -/
def Refers (zone : Zone) (target : String) : Prop :=
  ∃ identifier record value, zone.records.get? identifier = some record ∧ record.type = .cname
    ∧ record.data = .single value ∧ value.text = target

/-- Every canonical name with one value stands for the name of some address record of the zone. -/
def Leads (name : String) (zone : Zone) : Prop :=
  ∀ target, Refers zone target → ∃ record, HoldsAddress zone record
    ∧ Name.AreAlike name target record.name

/-- What the check compares: texts made absolute and put into lower case. -/
theorem validateReferences_eq_ok_iff :
    validateReferences name zone = .ok ()
      ↔ ∀ target, Refers zone target → ∃ record, HoldsAddress zone record
        ∧ comparable name target = comparable name record.name := by
  constructor
  · rintro h _ ⟨identifier, record, value, hr, ht, hd, rfl⟩
    rcases validateReferences_ok h hr ht hd with ⟨found, address, ha, htype, he⟩
    exact ⟨address, ⟨found, ha, htype⟩, he⟩
  · intro h
    have hnone : dangling name zone = [] := by
      refine List.filterMap_eq_nil_iff.mpr fun e he => ?_
      rcases Zone.mem_recordsOf_iff.mp he with ⟨hr, ht⟩
      cases hd : e.2.data with
      | multi values => simp only [Record.single?, hd]
      | single value =>
          rcases h value.text ⟨e.1, e.2, value, hr, ht, hd, rfl⟩ with ⟨address, ⟨found, ha⟩, heq⟩
          have hmem : comparable name value.text ∈ addressNames name zone := by
            rw [heq]
            exact List.mem_map.mpr ⟨(found, address), Zone.mem_recordsOf_iff.mpr ha, rfl⟩
          simp only [Record.single?, hd, List.contains_iff_mem.mpr hmem, if_true]
    rw [validateReferences, hnone]

/-- A verdict carries over if every name that has an address keeps one and every reference was
    there before. The zones may have different names. -/
theorem validateReferences_of_kept
    (haddress : ∀ record, HoldsAddress zone record → ∃ kept, HoldsAddress later kept
      ∧ comparable other kept.name = comparable name record.name)
    (hrefers : ∀ target, Refers later target → ∃ before, Refers zone before
      ∧ comparable name before = comparable other target)
    (h : validateReferences name zone = .ok ()) : validateReferences other later = .ok () := by
  refine validateReferences_eq_ok_iff.mpr fun target ht => ?_
  rcases hrefers target ht with ⟨before, hbefore, htarget⟩
  rcases validateReferences_eq_ok_iff.mp h before hbefore with ⟨record, hrecord, hleads⟩
  rcases haddress record hrecord with ⟨kept, hkept, hname⟩
  exact ⟨kept, hkept, (htarget.symm.trans hleads).trans hname.symm⟩

/-! ### Other spellings -/

/-- A record of a zone whose name, if it has an address, or whose target, if it is a canonical
    name, is written in another way. -/
inductive IsRespelled (zone : String) (record : Record) : Record → Prop
  | same : IsRespelled zone record record
  | address {text : String} (ht : record.type = .a)
      (h : Name.IsRespelling zone record.name text) :
      IsRespelled zone record { record with name := text }
  | reference {value : Value} {text : String} (ht : record.type = .cname)
      (hd : record.data = .single value) (h : Name.IsRespelling zone value.text text) :
      IsRespelled zone record { record with data := .single { value with text := text } }

/-- A zone with the same identifiers in which any number of records are written in another way. -/
def AreRespelled (name : String) (zone later : Zone) : Prop :=
  ∀ identifier, Option.Rel (IsRespelled name) (zone.records.get? identifier)
    (later.records.get? identifier)

/-- What the check sees of two records is the same. -/
structure LookAlike (name : String) (record other : Record) : Prop where
  type : other.type = record.type
  address : record.type = .a → comparable name other.name = comparable name record.name
  reference : record.type = .cname →
    Option.Rel
      (fun value value' : Value => comparable name value'.text = comparable name value.text)
      record.single? other.single?

theorem rel_swap {α β : Type} {r : α → β → Prop} {r' : β → α → Prop}
    (hswap : ∀ a b, r a b → r' b a) {x : Option α} {y : Option β} (h : Option.Rel r x y) :
    Option.Rel r' y x := by
  cases h with
  | none => exact .none
  | some h => exact .some (hswap _ _ h)

theorem exists_of_rel {α β : Type} {r : α → β → Prop} {a : α} {y : Option β}
    (h : Option.Rel r (some a) y) : ∃ b, y = some b ∧ r a b := by
  cases h with
  | some h => exact ⟨_, rfl, h⟩

theorem LookAlike.symm (h : LookAlike name record respelled) :
    LookAlike name respelled record where
  type := h.type.symm
  address := fun ht => (h.address (h.type ▸ ht)).symm
  reference := fun ht => rel_swap (fun _ _ => Eq.symm) (h.reference (h.type ▸ ht))

theorem IsRespelled.lookAlike (hname : Name.isValid name = true)
    (h : IsRespelled name record respelled) : LookAlike name record respelled := by
  have hrefl : Option.Rel (fun value value' : Value =>
      comparable name value'.text = comparable name value.text) record.single? record.single? := by
    cases record.single? with
    | none => exact .none
    | some value => exact .some rfl
  cases h with
  | same => exact ⟨rfl, fun _ => rfl, fun _ => hrefl⟩
  | address ht h => exact ⟨rfl, fun _ => h.lower_qualify_eq hname, fun _ => hrefl⟩
  | reference ht hd h =>
      refine ⟨rfl, fun _ => rfl, fun _ => ?_⟩
      simp only [Record.single?, hd]
      exact .some (h.lower_qualify_eq hname)

/-- Zones of which the check sees the same get the same verdict. -/
theorem validateReferences_of_lookAlike
    (hlook : ∀ identifier, Option.Rel (LookAlike name) (zone.records.get? identifier)
      (later.records.get? identifier))
    (h : validateReferences name zone = .ok ()) : validateReferences name later = .ok () := by
  have hback := fun identifier => rel_swap (fun _ _ => LookAlike.symm) (hlook identifier)
  refine validateReferences_of_kept ?_ ?_ h
  · rintro record ⟨identifier, hr, ht⟩
    rcases exists_of_rel (hr ▸ hlook identifier) with ⟨kept, hkept, hl⟩
    exact ⟨kept, ⟨identifier, hkept, hl.type.trans ht⟩, hl.address ht⟩
  · rintro _ ⟨identifier, record, value, hr, ht, hd, rfl⟩
    rcases exists_of_rel (hr ▸ hback identifier) with ⟨before, hbefore, hl⟩
    have hvalue : record.single? = some value := by rw [Record.single?, hd]
    rcases exists_of_rel (hvalue ▸ hl.reference ht) with ⟨value', hvalue', heq⟩
    refine ⟨value'.text, ⟨identifier, before, value', hbefore, hl.type.trans ht, ?_, rfl⟩, heq⟩
    unfold Record.single? at hvalue'
    split at hvalue'
    · next found hfound =>
        rw [hfound, Option.some.inj hvalue']
    · cases hvalue'

/-! ### The verdict -/

/-- **The check sees names, not spellings.** A zone with a valid name is accepted exactly if each of
    its canonical names with one value stands for the name of some address record, letter case
    apart. The verdict is the same if any number of names and targets are written in another way,
    and if the zone's name gets a dot at its end. A zone that keeps its addresses and gets no new
    canonical names stays accepted. -/
theorem validateReferences_iff_leads (hname : Name.isValid name = true) (zone : Zone) :
    (validateReferences name zone = .ok () ↔ Leads name zone)
      ∧ (∀ later, AreRespelled name zone later →
        (validateReferences name later = .ok () ↔ validateReferences name zone = .ok ()))
      ∧ (validateReferences (Mailbox.withFinalDot name) zone = .ok ()
        ↔ validateReferences name zone = .ok ())
      ∧ ∀ later, zone.recordsOf .a ⊆ later.recordsOf .a →
        later.recordsOf .cname ⊆ zone.recordsOf .cname →
        validateReferences name zone = .ok () → validateReferences name later = .ok () := by
  refine ⟨?_, fun later hlater => ?_, ?_, fun later haddress hrefers => ?_⟩
  · unfold Leads
    simp only [validateReferences_eq_ok_iff, comparable, Name.lower_qualify_eq_iff hname]
  · -- Seen by the check the two zones are the same, so each verdict carries over to the other.
    have hback := fun identifier =>
      rel_swap (fun _ _ h => (IsRespelled.lookAlike hname h).symm) (hlater identifier)
    have hlook := fun identifier => rel_swap (fun _ _ => LookAlike.symm) (hback identifier)
    exact ⟨validateReferences_of_lookAlike hback, validateReferences_of_lookAlike hlook⟩
  · simp only [validateReferences_eq_ok_iff, comparable, Name.qualify_withFinalDot]
  · refine validateReferences_of_kept ?_ ?_
    · rintro record ⟨identifier, ha⟩
      exact ⟨record, ⟨identifier, Zone.mem_recordsOf_iff.mp
        (haddress (Zone.mem_recordsOf_iff.mpr ha))⟩, rfl⟩
    · rintro target ⟨identifier, record, value, hr, ht, hv⟩
      rcases Zone.mem_recordsOf_iff.mp (hrefers (Zone.mem_recordsOf_iff.mpr ⟨hr, ht⟩)) with
        ⟨hr, ht⟩
      exact ⟨target, ⟨identifier, record, value, hr, ht, hv⟩, rfl⟩

end Builtin

namespace Spelled

def address (name : String) : Record :=
  { Record.ofValue .a ⟨"1.2.3.4", none⟩ with name := name }

def reference (target : String) : Record :=
  { Record.ofValue .cname ⟨target, none⟩ with name := "www" }

/-- A zone with an address and a canonical name that may lead to it. -/
def zone (name target : String) : Zone where
  records := (Table.empty.insert "apex" (address name)).insert "www" (reference target)

theorem areRespelled_zone {name text target other : String}
    (hname : Name.IsRespelling "example.com" name text)
    (htarget : Name.IsRespelling "example.com" target other) :
    Builtin.AreRespelled "example.com" (zone name target) (zone text other) := by
  intro identifier
  unfold zone
  by_cases hwww : identifier = "www"
  · rw [hwww, Table.get?_insert_self, Table.get?_insert_self]
    exact .some
      (@Builtin.IsRespelled.reference _ (reference target) ⟨target, none⟩ _ rfl rfl htarget)
  by_cases hapex : identifier = "apex"
  · rw [Table.get?_insert_of_ne _ _ hwww, Table.get?_insert_of_ne _ _ hwww, hapex,
      Table.get?_insert_self, Table.get?_insert_self]
    exact .some (.address rfl hname)
  · rw [Table.get?_insert_of_ne _ _ hwww, Table.get?_insert_of_ne _ _ hwww,
      Table.get?_insert_of_ne _ _ hapex, Table.get?_insert_of_ne _ _ hapex]
    exact .none

/-- A canonical name leads to the zone's own address however the two are written, and one that
    leads to another name does not. -/
theorem validateReferences_iff_leads_apex :
    Name.isValid "example.com" = true
      ∧ Builtin.AreRespelled "example.com" (zone "@" "EXAMPLE.com.")
        (zone "example.com." "example.COM.")
      ∧ Builtin.validateReferences "example.com" (zone "example.com." "example.COM.") = .ok ()
      ∧ Builtin.validateReferences "example.com." (zone "@" "EXAMPLE.com.") = .ok ()
      ∧ ¬Builtin.Leads "example.com" (zone "@" "mail") := by
  have hname : Name.isValid "example.com" = true := by decide
  have hrespelled := areRespelled_zone (.origin : Name.IsRespelling "example.com" "@" _)
    (.letterCase (by decide) (by decide) : Name.IsRespelling _ "EXAMPLE.com." "example.COM.")
  have haccepted : Builtin.validateReferences "example.com" (zone "@" "EXAMPLE.com.") = .ok () := by
    decide
  have hrejected : Builtin.validateReferences "example.com" (zone "@" "mail") ≠ .ok () := by
    decide
  rcases Builtin.validateReferences_iff_leads hname (zone "@" "EXAMPLE.com.") with
    ⟨-, hspelling, hdot, -⟩
  exact ⟨hname, hrespelled, (hspelling _ hrespelled).mpr haccepted, hdot.mpr haccepted, fun h =>
    hrejected ((Builtin.validateReferences_iff_leads hname (zone "@" "mail")).1.mpr h)⟩

end Spelled

end DnsZones
