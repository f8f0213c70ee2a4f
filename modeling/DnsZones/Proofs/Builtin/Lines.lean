import DnsZones.Proofs.Builtin.Columns
import DnsZones.Proofs.Builtin.Numerals
import DnsZones.Proofs.Layout.Lines

/-!
# Line Accounting

When the lines of a rendered zone are the ones that it should have.

A rendered zone should have a line for each directive and for each record with one
value, and for a list two more lines than there are values. What the plugins check
cannot break these lines: names, addresses, numbers and classes have no line breaks
in them. What they do not check can. A comment is never looked at, neither that of
a value nor that of the directive, and neither is the name of the zone. Of the
mailbox of a start of authority only the domain is, if it has one. A line break in
any of them starts a new line in the file, which whoever reads the file takes for a
record or for an error.

There is no file at all if one of the records is too wide to be written, so this is
said of zones whose records can be.

## Main definitions

* `Builtin.IsTidy`: A zone whose unchecked texts have no line breaks.
* `Builtin.IsRenderedAs`: A zone has a text.

## Theorems

* `Builtin.toList_fileText`: A zone file is written line by line.
* `Builtin.isLineSafe_iff`: Only the unchecked texts matter.
* `Builtin.render_lines_iff`: When the lines of a zone file are accounted for.
-/

namespace DnsZones

namespace Builtin

variable {timeout : Duration} {defaults : Option Config} {start state after : Host}
  {name : String} {source zone : Zone} {record : Record}

/-! ### What is written -/

theorem toList_entry (record : Record) :
    (Engine.entry (Layout.record record)).toList
      = Text.terminated ((Layout.recordLines record).map String.toList) := by
  have hne : ¬(Layout.record record).isEmpty = true := by
    rw [String.isEmpty_iff]
    exact Layout.record_ne record
  rw [Engine.entry, if_neg hne, Layout.toList_record]

/-- A zone file is written line by line. -/
theorem toList_fileText (name : String) (zone : Zone) :
    (fileText name zone).toList
      = Text.terminated ((Layout.fileLines name zone).map String.toList) := by
  have hfold : ∀ (entries : List (String × Record)) (before : String),
      (entries.foldl (fun before e => before ++ Engine.entry (Layout.record e.2)) before).toList
        = before.toList ++ Text.terminated
          ((entries.flatMap fun e => Layout.recordLines e.2).map String.toList) := by
    intro entries
    induction entries with
    | nil => exact fun before => (List.append_nil _).symm
    | cons e rest ih =>
        intro before
        rw [List.foldl_cons, ih, String.toList_append, toList_entry, List.flatMap_cons,
          List.map_append, Text.terminated_append, List.append_assoc]
  have hheading : (Engine.heading name zone).toList
      = Text.terminated ((("$ORIGIN " ++ name) :: (zone.ttl.bind Layout.ttlDirective).toList).map
        String.toList) := by
    unfold Engine.heading
    cases zone.ttl.bind Layout.ttlDirective with
    | none => simp [Text.terminated]
    | some line => simp [Text.terminated]
  rw [fileText, hfold, hheading, ← Text.terminated_append, ← List.map_append]
  rfl

/-! ### What can break a line -/

/-- A zone in which the texts that are not checked have no line breaks: its name, the comments, and
    the mailbox of a start of authority. -/
structure IsTidy (name : String) (zone : Zone) : Prop where
  name : '\n' ∉ name.toList
  /-- The comment of a directive that is written. -/
  directive : ∀ directive ∈ zone.ttl, directive.value.isSome = true →
    ∀ comment ∈ directive.comment, '\n' ∉ comment.toList
  /-- The comments of values. -/
  comments : ∀ e ∈ zone.records.entries, ∀ value ∈ Layout.values e.2,
    ∀ comment ∈ value.comment, '\n' ∉ comment.toList
  /-- The second value of a list, which is the mailbox of a start of authority. -/
  mailbox : ∀ e ∈ zone.records.entries, ∀ values value, e.2.data = .multi values →
    values[1]? = some value → '\n' ∉ value.text.toList

theorem not_mem_of_isWord {text : String} (h : Numeral.IsWord text) : '\n' ∉ text.toList :=
  fun hm => absurd (h.eq_plus_or_isDigit hm) (by decide)

theorem not_mem_serial (index : SerialIndex) : '\n' ∉ index.serial.toList := fun hm =>
  absurd ((SerialIndex.denotes_serial index).digits _ hm) (by decide)

/-- Of the values of a start of authority only the mailbox can have a line break. -/
theorem not_mem_of_isInForm {soa : Soa} {serial : Value} (h : IsInForm soa)
    (hserial : soa.serial = some serial) (hs : '\n' ∉ serial.text.toList) {value : Value}
    (hm : value ∈ soa.toValues) : value = soa.email ∨ '\n' ∉ value.text.toList := by
  rw [Soa.toValues, hserial] at hm
  simp only [Option.toList_some, List.singleton_append, List.mem_cons, List.not_mem_nil,
    or_false] at hm
  rcases hm with rfl | rfl | rfl | rfl | rfl | rfl | rfl
  · exact Or.inr (Layout.not_mem_of_isPlain rfl (Layout.isField_of_isValid h.primary))
  · exact Or.inl rfl
  · exact Or.inr hs
  · exact Or.inr (not_mem_of_isWord h.refresh)
  · exact Or.inr (not_mem_of_isWord h.retry)
  · exact Or.inr (not_mem_of_isWord h.expire)
  · exact Or.inr (not_mem_of_isWord h.minimum)

/-- Of the values of a normalized record only a mailbox can have a line break. -/
theorem not_mem_of_answers {config : Config} {zone identifier : String} {origin : Record}
    {plugin : Plugin Host} (hl : (registry timeout).lookup origin.type = some plugin)
    (h : Answers (plugin.normalize config zone identifier origin) record) {value : Value}
    (hm : value ∈ Layout.values record) :
    (∃ values, record.data = .multi values ∧ values[1]? = some value)
      ∨ '\n' ∉ value.text.toList := by
  have hsingle : origin.type ∈ [RecordType.a, .ns, .cname, .ptr] → '\n' ∉ value.text.toList := by
    intro htype
    rcases exists_value_of_isReturned ⟨_, _, _, _, _, _, htype, hl, h⟩ with ⟨-, _, hdata, hfield⟩
    rw [Layout.values, hdata, List.mem_singleton] at hm
    rw [hm]
    exact Layout.not_mem_of_isPlain rfl hfield
  rcases lookup_cases hl with ⟨ht, -⟩ | ⟨ht, -⟩ | ⟨ht, -⟩ | ⟨ht, -⟩ | ⟨-, rfl⟩
  · exact Or.inr (hsingle (by rw [ht]; decide))
  · exact Or.inr (hsingle (by rw [ht]; decide))
  · exact Or.inr (hsingle (by rw [ht]; decide))
  · exact Or.inr (hsingle (by rw [ht]; decide))
  · rcases h with ⟨before, after, h⟩
    rcases isInForm_of_normalizeAuthority h with
      ⟨soa, serial, hdata, hserial, hform, hgiven, hassigned⟩
    -- The serial number was given and accepted, or it was given out.
    have hnumber : '\n' ∉ serial.text.toList := by
      cases hg : config.generateSerial with
      | false => exact not_mem_of_isWord (hgiven hg)
      | true =>
          rcases hassigned hg with ⟨previous, -, htext⟩
          rw [htext]
          exact not_mem_serial _
    rw [Layout.values, hdata] at hm
    rcases not_mem_of_isInForm hform hserial hnumber hm with rfl | hsafe
    · exact Or.inl ⟨_, hdata, rfl⟩
    · exact Or.inr hsafe

/-- The lines of a normalized zone are without line breaks exactly if the unchecked texts are. -/
theorem isLineSafe_iff
    (h : (engine timeout defaults start).normalizeZone name source state = (.ok zone, after)) :
    Layout.IsLineSafe name zone ↔ IsTidy name zone := by
  rcases Engine.normalizeZone_ok h with ⟨_, -, -, hrecords, -⟩
  constructor
  · intro hsafe
    refine ⟨hsafe.name, hsafe.directive, fun e he value hm => (hsafe.values e he value hm).2, ?_⟩
    intro e he values value hdata hvalue
    refine (hsafe.values e he value ?_).1
    rw [Layout.values, hdata]
    exact List.mem_of_getElem? hvalue
  · intro htidy
    -- Every record comes from a plugin, which has checked all but the mailbox.
    refine ⟨htidy.name, htidy.directive, fun e he value hm => ⟨?_, htidy.comments e he value hm⟩⟩
    rcases hrecords e.1 e.2 (Table.get?_eq_some_iff.mpr he) with ⟨origin, plugin, hl, ha⟩
    rcases not_mem_of_answers hl ha hm with ⟨values, hdata, hvalue⟩ | hsafe
    · exact htidy.mailbox e he values value hdata hvalue
    · exact hsafe

/-- A zone is rendered as a text. A record that cannot be written breaks off the rendering, and then
    there is no text. -/
structure IsRenderedAs (engine : Engine Host) (host : Host) (name : String) (zone : Zone)
    (text : String) : Prop where
  /-- Every record can be written. -/
  fits : Layout.zoneFits zone = true
  /-- The text is put together, and the host is left alone. -/
  rendered : engine.render name zone host = (.ok text, host)

/-- The lines of a rendered zone whose records can be written are the ones that it should have,
    with nothing behind the last line break, exactly if its name, its comments and its mailbox have
    no line breaks. A line for the zone's name comes first, then one for the directive, if it has a
    value, and then those of the records in identifier order: one for a single value, and for a
    list two more than there are values. -/
theorem render_lines_iff
    (h : (engine timeout defaults start).normalizeZone name source state = (.ok zone, after))
    (hfits : Layout.zoneFits zone = true) (host : Host) :
    ∃ text, IsRenderedAs (engine timeout defaults start) host name zone text
      ∧ (Layout.fileLines name zone).length
        = 1 + (Layout.hasDirective zone).toNat + Layout.lineCounts zone.records.entries
      ∧ (Text.split '\n' text.toList = (Layout.fileLines name zone).map String.toList ++ [[]]
        ↔ IsTidy name zone) := by
  refine ⟨fileText name zone, ⟨hfits, render_eq (isWritable_of_normalizeZone h) name host⟩,
    Layout.length_fileLines name zone, ?_⟩
  have hfields : ∀ e ∈ zone.records.entries, Layout.HasFields e.2 := fun e he =>
    hasFields_of_isSound ((zoneIsSound_of_normalizeZone h).records e.1 e.2
      (Table.get?_eq_some_iff.mpr he))
  rw [toList_fileText, Text.split_terminated_iff, List.forall_mem_map, Layout.fileLines_iff hfields,
    isLineSafe_iff h]

end Builtin

namespace Annotated

def authority : Record where
  name := "@"
  type := .soa
  data := .multi [⟨"ns1.example.com.", none⟩, ⟨"hostmaster.example.com.", none⟩, ⟨"7", none⟩,
    ⟨"3600", none⟩, ⟨"600", none⟩, ⟨"86400", none⟩, ⟨"300", none⟩]

/-- An address whose value has a comment. -/
def host (comment : String) : Record where
  name := "web"
  type := .a
  data := .single ⟨"1.2.3.4", some comment⟩

theorem cmp_identifiers : KeyOrder.cmp "@" "web" = .lt := by decide

def zone (comment : String) : Zone where
  config := some { serialDirectory := ⟨"/"⟩ }
  records := ⟨[("@", authority), ("web", host comment)], List.pairwise_pair.mpr cmp_identifiers⟩

def engine : Engine Host := Builtin.engine Serial.defaultTimeout none {}

/-- The lines between the line breaks of the rendered zone. -/
def lines (comment : String) : Option (List (List Char)) :=
  match (engine.render "example.com." (zone comment) {}).1 with
  | .ok text => some (Text.split '\n' text.toList)
  | .error _ => none

/-- The lines that the zone should have, and nothing behind them. -/
def accounted (comment : String) : List (List Char) :=
  (Layout.fileLines "example.com." (zone comment)).map String.toList ++ [[]]

theorem lines_eq_iff {comment : String}
    (hiff : ∃ text, Builtin.IsRenderedAs engine {} "example.com." (zone comment) text
      ∧ (Text.split '\n' text.toList = accounted comment
        ↔ Builtin.IsTidy "example.com." (zone comment))) :
    lines comment = some (accounted comment) ↔ Builtin.IsTidy "example.com." (zone comment) := by
  rcases hiff with ⟨text, htext, hiff⟩
  rw [lines, htext.rendered, ← hiff]
  exact Option.some_inj

theorem isTidy_iff {comment : String} :
    Builtin.IsTidy "example.com." (zone comment) ↔ '\n' ∉ comment.toList := by
  have hentries : (zone comment).records.entries = [("@", authority), ("web", host comment)] := rfl
  have hmailbox : '\n' ∉ "hostmaster.example.com.".toList := by decide
  constructor
  · intro h
    refine h.comments ("web", host comment) ?_ _ List.mem_cons_self comment rfl
    rw [hentries]
    exact List.mem_cons_of_mem _ List.mem_cons_self
  · intro h
    refine ⟨by decide, nofun, ?_, ?_⟩
    · rw [hentries]
      simp [Layout.values, authority, host, h]
    · rw [hentries, List.forall_mem_cons, List.forall_mem_singleton]
      refine ⟨fun values value hdata hvalue => ?_, nofun⟩
      cases hdata
      cases hvalue
      exact hmailbox

/-- Only lists have a width, and the list of the zone has no comments. -/
theorem zoneFits_zone (comment : String) : Layout.zoneFits (zone comment) = true := rfl

theorem normalizeZone_broken :
    (engine.normalizeZone "example.com." (zone "web\nserver") {}).1 = .ok (zone "web\nserver") := by
  decide

theorem lines_of_normalizeZone {comment : String}
    (h : (engine.normalizeZone "example.com." (zone comment) {}).1 = .ok (zone comment)) :
    lines comment = some (Text.split '\n'
      (Text.terminated ((Layout.fileLines "example.com." (zone comment)).map String.toList))) := by
  have hrender : engine.render "example.com." (zone comment) {}
      = (.ok (Builtin.fileText "example.com." (zone comment)), {}) :=
    Builtin.render_eq (Builtin.isWritable_of_normalizeZone (Prod.ext h rfl)) _ _
  rw [lines, hrender, ← Builtin.toList_fileText]

/-- A comment on one line leaves the zone file in order, and one on two lines does not. -/
theorem render_lines_iff_annotated :
    (engine.normalizeZone "example.com." (zone "web server") {}).1 = .ok (zone "web server")
      ∧ Layout.zoneFits (zone "web server") = true
      ∧ lines "web server" = some (accounted "web server")
      ∧ (engine.normalizeZone "example.com." (zone "web\nserver") {}).1
        = .ok (zone "web\nserver")
      ∧ Layout.zoneFits (zone "web\nserver") = true
      ∧ lines "web\nserver" ≠ some (accounted "web\nserver") := by
  have hone : (engine.normalizeZone "example.com." (zone "web server") {}).1
      = .ok (zone "web server") := by decide
  refine ⟨hone, zoneFits_zone _, ?_, normalizeZone_broken, zoneFits_zone _, ?_⟩
  · rcases Builtin.render_lines_iff (Prod.ext hone rfl) (zoneFits_zone _) {} with
      ⟨text, htext, -, hiff⟩
    exact (lines_eq_iff ⟨text, htext, hiff⟩).mpr (isTidy_iff.mpr (by decide))
  · rcases Builtin.render_lines_iff (Prod.ext normalizeZone_broken rfl) (zoneFits_zone _) {} with
      ⟨text, htext, -, hiff⟩
    intro hlines
    exact absurd (isTidy_iff.mp ((lines_eq_iff ⟨text, htext, hiff⟩).mp hlines)) (by decide)

/-- The zone is normalized and should have 11 lines, but with a line break in a comment its file
    has 12. -/
theorem not_accounted_annotated :
    (engine.normalizeZone "example.com." (zone "web\nserver") {}).1 = .ok (zone "web\nserver")
      ∧ (accounted "web\nserver").length = 11 + 1
      ∧ (lines "web\nserver").map List.length = some (12 + 1)
      ∧ lines "web\nserver" ≠ some (accounted "web\nserver") := by
  have hshould : (accounted "web\nserver").length = 11 + 1 := by decide
  -- The lines are counted one by one, since taking the whole text apart would be slow.
  have hdoes : (lines "web\nserver").map List.length = some (12 + 1) := by
    rw [lines_of_normalizeZone normalizeZone_broken]
    decide
  refine ⟨normalizeZone_broken, hshould, hdoes, fun hlines => ?_⟩
  rw [hlines, Option.map_some, hshould] at hdoes
  exact absurd hdoes (by decide)

end Annotated

end DnsZones
