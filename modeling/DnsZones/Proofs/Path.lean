import DnsZones.Path

/-!
# Laws of Paths

What a path denotes after it was joined, trimmed or taken apart.

What counts about a path is where it starts and which of its segments say
anything about the way: those that are neither empty nor a dot. These are its
steps. Joining adds a step, slashes at the end add none, and the directories
above a path have fewer, so every operation on the text of a path comes down to
what it does with the steps.

## Main definitions

* `Path.isStep`, `Path.steps`: The segments of a path that say something.
* `Path.IsEntryName`: A text that names an entry of a directory.
* `Path.upTo`: The path of a path's first components.

## Theorems

* `Path.join_text_ne`: A path below a path with a text has a text.
* `Path.isAbsolute_absolute`: What is made absolute is absolute.
* `Path.exists_segments_join`: The segments of a joined path.
* `Path.steps_withoutFinalSlashes`: Slashes at the end say nothing.
* `Path.exists_upTo_steps`: A path of first components has the first steps.
-/

namespace DnsZones

/-! ### Texts between separators -/

namespace Text

variable {α : Type} [DecidableEq α] {separator : α} {xs ys : List α}

theorem split_ne_nil (separator : α) (xs : List α) : split separator xs ≠ [] := by
  cases xs with
  | nil => exact List.cons_ne_nil _ _
  | cons x xs =>
      rw [split]
      split
      · exact List.cons_ne_nil _ _
      · split
        · exact List.cons_ne_nil _ _
        · exact List.cons_ne_nil _ _

theorem split_cons_self (separator : α) (xs : List α) :
    split separator (separator :: xs) = [] :: split separator xs := if_pos rfl

theorem split_cons_of_ne {x : α} {field : List α} {fields : List (List α)} (hx : x ≠ separator)
    (h : split separator xs = field :: fields) :
    split separator (x :: xs) = (x :: field) :: fields := by
  rw [split, if_neg hx, h]

theorem split_of_not_mem (h : separator ∉ xs) : split separator xs = [xs] := by
  induction xs with
  | nil => rfl
  | cons x xs ih =>
      have hx : x ≠ separator := fun he => h (by rw [he]; exact List.mem_cons_self)
      exact split_cons_of_ne hx (ih fun hm => h (List.mem_cons_of_mem _ hm))

/-- A separator divides the fields before it from those after it. -/
theorem split_append_cons (separator : α) (xs ys : List α) :
    split separator (xs ++ separator :: ys) = split separator xs ++ split separator ys := by
  induction xs with
  | nil => exact split_cons_self separator ys
  | cons x xs ih =>
      by_cases hx : x = separator
      · rw [hx, List.cons_append, split_cons_self, split_cons_self, ih, List.cons_append]
      · rcases List.exists_cons_of_ne_nil (split_ne_nil separator xs) with ⟨field, fields, hs⟩
        rw [hs, List.cons_append] at ih
        rw [List.cons_append, split_cons_of_ne hx ih, split_cons_of_ne hx hs, List.cons_append]

/-- Text that does not end in a separator ends in a field that has something in it. -/
theorem exists_split_concat {x : α} (hx : x ≠ separator) (xs : List α) :
    ∃ fields field, split separator (xs ++ [x]) = fields ++ [field ++ [x]] := by
  induction xs with
  | nil => exact ⟨[], [], split_of_not_mem fun hm => hx (List.mem_singleton.mp hm).symm⟩
  | cons y ys ih =>
      rcases ih with ⟨fields, field, hsplit⟩
      by_cases hy : y = separator
      · refine ⟨[] :: fields, field, ?_⟩
        rw [hy, List.cons_append, split_cons_self, hsplit, List.cons_append]
      · -- The character belongs to the first field, which may be the last as well.
        cases fields with
        | nil => exact ⟨[], y :: field, split_cons_of_ne hy hsplit⟩
        | cons first rest => exact ⟨(y :: first) :: rest, field, split_cons_of_ne hy hsplit⟩

theorem not_mem_of_mem_split {field : List α} (h : field ∈ split separator xs) :
    separator ∉ field := by
  induction xs generalizing field with
  | nil =>
      rw [List.mem_singleton.mp h]
      exact List.not_mem_nil
  | cons x xs ih =>
      by_cases hx : x = separator
      · rw [hx, split_cons_self] at h
        rcases List.mem_cons.mp h with rfl | h
        · exact List.not_mem_nil
        · exact ih h
      · rcases List.exists_cons_of_ne_nil (split_ne_nil separator xs) with ⟨first, fields, hs⟩
        rw [split_cons_of_ne hx hs] at h
        rw [hs] at ih
        rcases List.mem_cons.mp h with rfl | h
        · intro hm
          rcases List.mem_cons.mp hm with he | hm
          · exact hx he.symm
          · exact ih List.mem_cons_self hm
        · exact ih (List.mem_cons_of_mem _ h)

end Text

namespace Path

theorem text_ne_of_isAbsolute {path : Path} (h : path.isAbsolute = true) : path.text ≠ "" := by
  intro he
  rw [isAbsolute, he] at h
  cases h

theorem join_text_ne {directory : Path} (h : directory.text ≠ "") (below : String) :
    (directory.join below).text ≠ "" := by
  unfold join
  split
  · next ha => exact text_ne_of_isAbsolute ha
  · split
    · simp only [ne_eq, String.append_eq_empty_iff, h, false_and, not_false_eq_true]
    · simp only [ne_eq, String.append_eq_empty_iff, h, false_and, not_false_eq_true]

/-- A path below an absolute one is absolute. -/
theorem isAbsolute_join_of_isAbsolute {directory : Path} (h : directory.isAbsolute = true)
    (below : String) : (directory.join below).isAbsolute = true := by
  have hhead : directory.text.toList.head? = some '/' := beq_iff_eq.mp h
  have hfront : ∀ s : String, isAbsolute ⟨directory.text ++ s⟩ = true := fun s => by
    rw [isAbsolute, String.toList_append, List.head?_append, hhead]
    rfl
  unfold join
  split
  · next ha => exact ha
  · split
    · exact hfront below
    · rw [String.append_assoc]
      exact hfront _

/-- An absolute path is one, if the working directory is. -/
theorem isAbsolute_absolute {workingDirectory : Path} (hw : workingDirectory.isAbsolute = true)
    (path : Path) : (path.absolute workingDirectory).isAbsolute = true := by
  unfold absolute
  split
  · next ha => exact ha
  · have hjoined : ((path.segments.filterMap step?).foldl (fun p step => p.join step.text)
        workingDirectory).isAbsolute = true :=
      List.foldlRecOn (motive := fun p : Path => p.isAbsolute = true) _ _ hw
        fun _ hp step _ => isAbsolute_join_of_isAbsolute hp step.text
    split
    · exact isAbsolute_join_of_isAbsolute hjoined ""
    · exact hjoined

/-! ### Steps -/

/-- Whether a segment of a path says anything about the way. -/
def isStep (segment : String) : Bool := segment ≠ "" && segment ≠ "."

/-- The segments that say something. -/
def steps (segments : List String) : List String := segments.filter isStep

theorem steps_append (xs ys : List String) : steps (xs ++ ys) = steps xs ++ steps ys :=
  List.filter_append xs ys

theorem steps_steps (xs : List String) : steps (steps xs) = steps xs := by
  simp only [steps, List.filter_filter, Bool.and_self]

theorem steps_take (xs : List String) (n : Nat) : steps ((steps xs).take n) = (steps xs).take n :=
  List.filter_eq_self.mpr fun _ hm => (List.mem_filter.mp (List.mem_of_mem_take hm)).2

theorem isStep_eq_false_iff {segment : String} :
    isStep segment = false ↔ segment = "" ∨ segment = "." := by
  simp only [isStep, ne_eq, decide_not, Bool.and_eq_false_iff, Bool.not_eq_false',
    decide_eq_true_eq]

theorem segments_slash (s t : String) :
    segments ⟨s ++ "/" ++ t⟩ = segments ⟨s⟩ ++ segments ⟨t⟩ := by
  have htext : (s ++ "/" ++ t).toList = s.toList ++ '/' :: t.toList := by
    rw [String.toList_append, String.toList_append, List.append_assoc]
    rfl
  simp only [segments, htext, Text.split_append_cons, List.map_append]

theorem segments_of_not_mem {s : String} (h : '/' ∉ s.toList) : segments ⟨s⟩ = [s] := by
  simp only [segments, Text.split_of_not_mem h, List.map_cons, List.map_nil, String.ofList_toList]

theorem not_mem_of_mem_segments {path : Path} {segment : String} (h : segment ∈ path.segments) :
    '/' ∉ segment.toList := by
  rcases List.mem_map.mp h with ⟨field, hf, rfl⟩
  rw [String.toList_ofList]
  exact Text.not_mem_of_mem_split hf

theorem isAbsolute_of_not_mem {s : String} (h : '/' ∉ s.toList) : isAbsolute ⟨s⟩ = false := by
  rw [isAbsolute, beq_eq_false_iff_ne]
  exact fun he => h (List.mem_of_head? he)

/-! ### Joining -/

/-- The segments of a joined path: what was put below, after segments with the same steps as
    those of the directory. -/
theorem exists_segments_join (directory : Path) {below : String} (h : '/' ∉ below.toList) :
    ∃ xs, (directory.join below).segments = xs ++ [below]
      ∧ steps xs = steps directory.segments := by
  rw [join, isAbsolute_of_not_mem h, if_neg Bool.false_ne_true]
  by_cases he : directory.text = ""
  · refine ⟨[], ?_, ?_⟩
    · rw [if_pos (by rw [he]; rfl), he, String.empty_append, segments_of_not_mem h]
      rfl
    · rw [segments, he]
      rfl
  -- A slash at the end of the directory already gives the separator.
  by_cases hs : directory.endsInSlash = true
  · rw [if_pos (by rw [hs, Bool.or_true])]
    rw [endsInSlash, beq_iff_eq, List.getLast?_eq_some_iff] at hs
    rcases hs with ⟨cs, hcs⟩
    have htext : directory.text = String.ofList cs ++ "/" := by
      rw [← String.toList_inj, String.toList_append, String.toList_ofList, hcs]
      rfl
    have hwhole : directory.segments = segments ⟨String.ofList cs⟩ ++ [""] := by
      have hslash := segments_slash (String.ofList cs) ""
      rw [String.append_empty, ← htext] at hslash
      exact hslash
    refine ⟨segments ⟨String.ofList cs⟩, ?_, ?_⟩
    · rw [htext, segments_slash, segments_of_not_mem h]
    · rw [hwhole, steps_append]
      exact (List.append_nil _).symm
  · refine ⟨directory.segments, ?_, rfl⟩
    rw [if_neg (by rw [Bool.or_eq_true, String.isEmpty_iff]; exact fun ho => ho.elim he hs),
      segments_slash, segments_of_not_mem h]

theorem steps_join (directory : Path) {below : String} (h : '/' ∉ below.toList) :
    steps (directory.join below).segments = steps directory.segments ++ steps [below] := by
  rcases exists_segments_join directory h with ⟨xs, hxs, hsteps⟩
  rw [hxs, steps_append, hsteps]

theorem isAbsolute_join (directory : Path) {below : String} (h : '/' ∉ below.toList) :
    (directory.join below).isAbsolute = directory.isAbsolute := by
  rw [join, isAbsolute_of_not_mem h, if_neg Bool.false_ne_true]
  by_cases he : directory.text = ""
  · rw [if_pos (by rw [he]; rfl), he, String.empty_append, isAbsolute_of_not_mem h, isAbsolute, he]
    rfl
  · have hne : directory.text.toList ≠ [] := by
      rw [ne_eq, String.toList_eq_nil_iff]
      exact he
    rcases List.exists_cons_of_ne_nil hne with ⟨c, cs, hcs⟩
    split
    · simp only [isAbsolute, String.toList_append, hcs, List.cons_append, List.head?_cons]
    · simp only [isAbsolute, String.toList_append, hcs, List.cons_append, List.head?_cons]

/-- A text that names an entry of a directory. -/
structure IsEntryName (name : String) : Prop where
  /-- There is no slash in it. -/
  noSlash : '/' ∉ name.toList
  /-- It says something about the way. -/
  step : isStep name = true
  /-- It is not the way up. -/
  ne_parent : name ≠ ".."

/-- The text of a joined path ends as what was put below. -/
theorem exists_text_join (directory : Path) {below : String} (h : '/' ∉ below.toList) :
    ∃ before, (directory.join below).text = before ++ below
      ∧ ∀ other : String, '/' ∉ other.toList → (directory.join other).text = before ++ other := by
  have hjoin : ∀ other : String, '/' ∉ other.toList → (directory.join other).text
      = (if directory.text.isEmpty || directory.endsInSlash then directory.text
        else directory.text ++ "/") ++ other := by
    intro other ho
    rw [join, isAbsolute_of_not_mem ho, if_neg Bool.false_ne_true]
    split
    · rfl
    · rfl
  exact ⟨_, hjoin below h, hjoin⟩

theorem endsInSlash_join (directory : Path) {name : String} (h : IsEntryName name) :
    (directory.join name).endsInSlash = false := by
  rcases exists_text_join directory h.noSlash with ⟨before, htext, -⟩
  have hne : name.toList ≠ [] := by
    rw [ne_eq, String.toList_eq_nil_iff]
    -- The last character is one of the name, which has no slash in it.
    intro he
    have hstep := h.step
    rw [he] at hstep
    cases hstep
  rw [endsInSlash, htext, beq_eq_false_iff_ne, String.toList_append, List.getLast?_append,
    List.getLast?_eq_some_getLast hne, Option.some_or]
  intro he
  exact h.noSlash (Option.some.inj he ▸ List.getLast_mem hne)

theorem endsInName_join (directory : Path) {name : String} (h : IsEntryName name) :
    (directory.join name).endsInName = true := by
  rcases exists_segments_join directory h.noSlash with ⟨xs, hxs, -⟩
  have hne : name ≠ "" ∧ name ≠ "." := by
    rw [← not_or, ← isStep_eq_false_iff, h.step]
    decide
  have hlast : ((xs ++ [name]).filter (· ≠ "")).getLast? = some name := by
    have hkeep : [name].filter (· ≠ "") = [name] := by
      simp only [ne_eq, hne.1, not_false_eq_true, decide_true, List.filter_cons_of_pos,
        List.filter_nil]
    rw [List.filter_append, hkeep]
    exact List.getLast?_concat
  rw [endsInName, hxs, hlast]
  simp only [ne_eq, hne.2, not_false_eq_true, decide_true, h.ne_parent, Bool.and_self]

/-- A path below a directory that ends in a name, and not in a slash, ends in the name of an
    entry. -/
theorem isEntryName_of_join {directory : Path} {name : String} (h : '/' ∉ name.toList)
    (hname : (directory.join name).endsInName = true)
    (hend : (directory.join name).endsInSlash = false) : IsEntryName name := by
  rcases exists_segments_join directory h with ⟨xs, hxs, -⟩
  -- A dot or the way up at the end would be no name.
  have hlast : name ≠ "" → name ≠ "." ∧ name ≠ ".." := by
    intro hne
    rw [endsInName, hxs, List.filter_append, List.filter_cons_of_pos (by simpa using hne),
      List.filter_nil, List.getLast?_concat] at hname
    simpa using hname
  have hne : name ≠ "" := by
    rintro rfl
    by_cases htext : directory.text = ""
    · -- The empty path ends in no name.
      have hjoin : directory.join "" = ⟨""⟩ := by
        rw [join, htext]
        rfl
      rw [hjoin] at hname
      exact absurd hname (by decide)
    · rw [join, isAbsolute_of_not_mem h, if_neg Bool.false_ne_true] at hend
      by_cases hslash : directory.endsInSlash = true
      · rw [if_pos (by rw [hslash, Bool.or_true]), String.append_empty] at hend
        rw [hslash] at hend
        cases hend
      · have hnot : ¬(directory.text.isEmpty || directory.endsInSlash) = true := by
          rw [Bool.or_eq_true, String.isEmpty_iff]
          exact fun ho => ho.elim htext hslash
        rw [if_neg hnot, endsInSlash, String.append_empty, String.toList_append,
          List.getLast?_append] at hend
        cases hend
  refine ⟨h, ?_, (hlast hne).2⟩
  rw [isStep, decide_eq_true hne, decide_eq_true (hlast hne).1]
  rfl

/-- The last segment of a path that ends in a name, and not in a slash, is the name of an entry. -/
theorem exists_segments_of_endsInName {path : Path} (hname : path.endsInName = true)
    (hend : path.endsInSlash = false) :
    ∃ xs name, path.segments = xs ++ [name] ∧ IsEntryName name := by
  have htext : path.text.toList ≠ [] := by
    intro hnil
    rw [endsInName, segments, hnil] at hname
    exact absurd hname (by decide)
  rcases List.eq_nil_or_concat path.text.toList with hnil | ⟨cs, c, hcs⟩
  · exact absurd hnil htext
  rw [List.concat_eq_append] at hcs
  have hc : c ≠ '/' := by
    rw [endsInSlash, hcs, List.getLast?_concat, beq_eq_false_iff_ne] at hend
    exact fun he => hend (congrArg some he)
  rcases Text.exists_split_concat hc cs with ⟨fields, field, hsplit⟩
  have hsegments : path.segments
      = fields.map String.ofList ++ [String.ofList (field ++ [c])] := by
    rw [segments, hcs, hsplit, List.map_append]
    rfl
  have hne : String.ofList (field ++ [c]) ≠ "" := by
    rw [ne_eq, ← String.toList_inj, String.toList_ofList]
    exact List.append_ne_nil_of_right_ne_nil _ (List.cons_ne_nil _ _)
  -- The segment is the last that has a text, so it is neither kind of dots.
  have hdots : String.ofList (field ++ [c]) ≠ "." ∧ String.ofList (field ++ [c]) ≠ ".." := by
    rw [endsInName, hsegments, List.filter_append, List.filter_cons_of_pos (by simp),
      List.filter_nil, List.getLast?_concat] at hname
    simpa only [ne_eq, Bool.and_eq_true, decide_eq_true_eq] using hname
  refine ⟨_, _, hsegments, ?_, ?_, hdots.2⟩
  · refine not_mem_of_mem_segments (show _ ∈ path.segments from ?_)
    rw [hsegments]
    exact List.mem_append_right _ (List.mem_singleton.mpr rfl)
  · rw [isStep, decide_eq_true hne, decide_eq_true hdots.1]
    rfl

/-! ### Slashes at the end -/

/-- A path is what is left of it without the slashes at its end, followed by them. -/
theorem exists_final_slashes (path : Path) :
    ∃ k, path.text.toList = path.withoutFinalSlashes.text.toList ++ List.replicate k '/' := by
  -- Seen from the end, the slashes come first.
  have hslashes : path.text.toList.reverse.takeWhile (· == '/')
      = List.replicate (path.text.toList.reverse.takeWhile (· == '/')).length '/' :=
    List.eq_replicate_iff.mpr
      ⟨rfl, fun c hc => beq_iff_eq.mp (List.all_eq_true.mp List.all_takeWhile c hc)⟩
  refine ⟨(path.text.toList.reverse.takeWhile (· == '/')).length, ?_⟩
  rw [withoutFinalSlashes, String.toList_ofList]
  refine List.reverse_inj.mp ?_
  rw [List.reverse_append, List.reverse_reverse, List.reverse_replicate, ← hslashes,
    List.takeWhile_append_dropWhile]

/-- Slashes at the end add segments that say nothing. -/
theorem steps_split_slashes (cs : List Char) (k : Nat) :
    steps ((Text.split '/' (cs ++ List.replicate k '/')).map String.ofList)
      = steps ((Text.split '/' cs).map String.ofList) := by
  induction k with
  | zero => rw [List.replicate_zero, List.append_nil]
  | succ k ih =>
      rw [List.replicate_succ', ← List.append_assoc, Text.split_append_cons, List.map_append,
        steps_append, ih]
      exact List.append_nil _

theorem steps_withoutFinalSlashes (path : Path) :
    steps path.withoutFinalSlashes.segments = steps path.segments := by
  rcases exists_final_slashes path with ⟨k, hk⟩
  rw [segments, segments, hk, steps_split_slashes]

/-- A path that ends in a name starts where it did, without the slashes at its end. -/
theorem isAbsolute_withoutFinalSlashes {path : Path} (h : path.endsInName = true) :
    path.withoutFinalSlashes.isAbsolute = path.isAbsolute := by
  rcases exists_final_slashes path with ⟨k, hk⟩
  rw [isAbsolute, isAbsolute, hk]
  cases hcs : path.withoutFinalSlashes.text.toList with
  | cons c cs => rfl
  | nil =>
      -- Nothing but slashes would leave no name at the end.
      have hsteps : steps path.segments = [] := by
        rw [segments, hk, hcs, steps_split_slashes]
        rfl
      rw [endsInName] at h
      cases hlast : (path.segments.filter (· ≠ "")).getLast? with
      | none =>
          rw [hlast] at h
          cases h
      | some segment =>
          rcases List.mem_filter.mp (List.mem_of_getLast? hlast) with ⟨hm, hne⟩
          rw [hlast] at h
          simp only [ne_eq, decide_not, Bool.and_eq_true, Bool.not_eq_true',
            decide_eq_false_iff_not] at h
          have hstep : isStep segment = true := by
            rw [isStep, hne, Bool.true_and, decide_eq_true_eq]
            exact h.1
          have hin : segment ∈ steps path.segments := List.mem_filter.mpr ⟨hm, hstep⟩
          rw [hsteps] at hin
          cases hin

theorem withoutFinalSlashes_of_not_endsInSlash {path : Path} (h : path.endsInSlash = false) :
    path.withoutFinalSlashes = path := by
  have hkeep : path.text.toList.reverse.dropWhile (· == '/') = path.text.toList.reverse := by
    rw [endsInSlash, List.getLast?_eq_head?_reverse] at h
    cases hcs : path.text.toList.reverse with
    | nil => rfl
    | cons c cs =>
        rw [hcs] at h
        exact List.dropWhile_cons_of_neg (by simpa only [List.head?_cons, Option.some_beq_some,
          Bool.not_eq_true] using h)
  rw [withoutFinalSlashes, hkeep, List.reverse_reverse, String.ofList_toList]

/-! ### Components -/

/-- The texts of the steps that segments stand for are those segments that say something. -/
theorem map_text_filterMap_step? (xs : List String) :
    (xs.filterMap step?).map Component.text = steps xs := by
  induction xs with
  | nil => rfl
  | cons segment rest ih =>
      by_cases hs : segment = "" ∨ segment = "."
      · have hstep : isStep segment = false := isStep_eq_false_iff.mpr hs
        rw [List.filterMap_cons_none (by rw [step?, if_pos hs]), ih, steps, steps,
          List.filter_cons_of_neg (by rw [hstep]; exact Bool.false_ne_true)]
      · have hstep : isStep segment = true := by
          rw [← Bool.not_eq_false, isStep_eq_false_iff]
          exact hs
        by_cases hp : segment = ".."
        · rw [List.filterMap_cons_some (by rw [step?, if_neg hs, if_pos hp]), List.map_cons, ih,
            steps, steps, List.filter_cons_of_pos hstep, hp]
          rfl
        · rw [List.filterMap_cons_some (by rw [step?, if_neg hs, if_neg hp]), List.map_cons, ih,
            steps, steps, List.filter_cons_of_pos hstep]
          rfl

/-- Steps joined to a path, one after the other, are added to its steps. -/
theorem steps_foldl_join {cs : List Component} (start : Path)
    (h : ∀ c ∈ cs, '/' ∉ c.text.toList) :
    steps (cs.foldl (fun p step => p.join step.text) start).segments
        = steps start.segments ++ steps (cs.map Component.text)
      ∧ (cs.foldl (fun p step => p.join step.text) start).isAbsolute = start.isAbsolute := by
  induction cs generalizing start with
  | nil => exact ⟨(List.append_nil _).symm, rfl⟩
  | cons c cs ih =>
      have hc := h c List.mem_cons_self
      rcases ih (start.join c.text) fun d hd => h d (List.mem_cons_of_mem _ hd) with
        ⟨hsteps, habsolute⟩
      refine ⟨?_, habsolute.trans (isAbsolute_join start hc)⟩
      rw [List.foldl_cons, hsteps, steps_join start hc, List.append_assoc, ← steps_append]
      rfl

/-- No step that a segment stands for has a slash in its text, and none has no text. -/
theorem text_of_mem_filterMap_step? {path : Path} {c : Component}
    (h : c ∈ path.segments.filterMap step?) : '/' ∉ c.text.toList ∧ c.text ≠ "" := by
  have hm : c.text ∈ steps path.segments := by
    rw [← map_text_filterMap_step?]
    exact List.mem_map_of_mem h
  rcases List.mem_filter.mp hm with ⟨hsegment, hstep⟩
  refine ⟨not_mem_of_mem_segments hsegment, fun he => ?_⟩
  rw [he] at hstep
  cases hstep

/-- A path begins with the root, with a dot, or with a step. -/
theorem components_cases (path : Path) :
    ∃ lead : List Component, path.components = lead ++ path.segments.filterMap step?
      ∧ (lead = [] ∧ path.isAbsolute = false ∨ lead = [.current] ∧ path.isAbsolute = false
        ∨ lead = [.root] ∧ path.isAbsolute = true) := by
  rw [components]
  cases ha : path.isAbsolute with
  | true => exact ⟨[.root], rfl, Or.inr (Or.inr ⟨rfl, rfl⟩)⟩
  | false =>
      by_cases hc : path.segments.head? = some "."
      · exact ⟨[.current], by simp only [hc, Bool.false_eq_true, if_false, if_true]; rfl,
          Or.inr (Or.inl ⟨rfl, rfl⟩)⟩
      · exact ⟨[], by simp only [hc, Bool.false_eq_true, if_false, List.nil_append],
          Or.inl ⟨rfl, rfl⟩⟩

/-- The path of a path's first components. -/
def upTo (path : Path) (n : Nat) : Path :=
  (path.components.take n).foldl (fun p step => p.join step.text) ⟨""⟩

/-- The first components of a path make a path on the same way, with the first of its steps. The
    root and a leading dot are components but no steps. -/
theorem exists_upTo_steps (path : Path) :
    ∃ lead, lead ≤ 1 ∧ path.components.length = lead + (steps path.segments).length
      ∧ ∀ n, 0 < n → n ≤ path.components.length →
        (path.upTo n).text ≠ "" ∧ (path.upTo n).isAbsolute = path.isAbsolute
          ∧ steps (path.upTo n).segments = (steps path.segments).take (n - lead) := by
  rcases components_cases path with ⟨lead, hcomponents, hlead⟩
  have hlength : (path.segments.filterMap step?).length = (steps path.segments).length := by
    rw [← map_text_filterMap_step?, List.length_map]
  have htake : ∀ n, ∀ c ∈ (path.segments.filterMap step?).take n, '/' ∉ c.text.toList :=
    fun n c hc => (text_of_mem_filterMap_step? (List.mem_of_mem_take hc)).1
  have hmap : ∀ n, ((path.segments.filterMap step?).take n).map Component.text
      = (steps path.segments).take n := by
    intro n
    rw [List.map_take, map_text_filterMap_step?]
  -- After a root or a dot the other components are joined to a path that has a text.
  have hjoined : ∀ (start : Path) (n : Nat), start.text ≠ "" →
      steps start.segments = [] → start.isAbsolute = path.isAbsolute →
      let joined := ((path.segments.filterMap step?).take n).foldl
        (fun p step => p.join step.text) start
      joined.text ≠ "" ∧ joined.isAbsolute = path.isAbsolute
        ∧ steps joined.segments = (steps path.segments).take n := by
    intro start n htext hnone habsolute
    rcases steps_foldl_join start (htake n) with ⟨hsteps, hstart⟩
    refine ⟨List.foldlRecOn (motive := fun p : Path => p.text ≠ "") _ _ htext
      fun _ hp step _ => join_text_ne hp step.text, hstart.trans habsolute, ?_⟩
    rw [hsteps, hnone, List.nil_append, hmap, steps_take]
  -- With no component in front, the first step is what gives the path a text.
  rcases hlead with ⟨rfl, ha⟩ | ⟨rfl, ha⟩ | ⟨rfl, ha⟩
  · refine ⟨0, Nat.zero_le 1, by rw [hcomponents, List.nil_append, hlength, Nat.zero_add],
      fun n hn hle => ?_⟩
    rw [hcomponents, List.nil_append] at hle
    rcases steps_foldl_join ⟨""⟩ (htake n) with ⟨hsteps, hstart⟩
    rw [upTo, hcomponents, List.nil_append]
    refine ⟨?_, hstart.trans ha.symm, ?_⟩
    · cases hcs : path.segments.filterMap step? with
      | nil =>
          rw [hcs, List.length_nil] at hle
          omega
      | cons c cs =>
          obtain ⟨m, rfl⟩ : ∃ m, n = m + 1 := ⟨n - 1, by omega⟩
          have hm : c ∈ path.segments.filterMap step? := by
            rw [hcs]
            exact List.mem_cons_self
          have hc := text_of_mem_filterMap_step? hm
          rcases exists_text_join ⟨""⟩ hc.1 with ⟨before, htext, -⟩
          rw [List.take_succ_cons, List.foldl_cons]
          refine List.foldlRecOn (motive := fun p : Path => p.text ≠ "") _ _ ?_
            fun _ hp step _ => join_text_ne hp step.text
          rw [htext, ne_eq, String.append_eq_empty_iff]
          exact fun he => hc.2 he.2
    · rw [hsteps, hmap, Nat.sub_zero]
      have hnone : steps (segments ⟨""⟩) = [] := rfl
      rw [hnone, List.nil_append, steps_take]
  · refine ⟨1, Nat.le_refl 1, by rw [hcomponents, List.length_append, hlength]; rfl,
      fun n hn _ => ?_⟩
    obtain ⟨m, rfl⟩ : ∃ m, n = m + 1 := ⟨n - 1, by omega⟩
    rw [upTo, hcomponents]
    exact hjoined ⟨"."⟩ m (by decide) (by decide) ha.symm
  · refine ⟨1, Nat.le_refl 1, by rw [hcomponents, List.length_append, hlength]; rfl,
      fun n hn _ => ?_⟩
    obtain ⟨m, rfl⟩ : ∃ m, n = m + 1 := ⟨n - 1, by omega⟩
    rw [upTo, hcomponents]
    exact hjoined ⟨"/"⟩ m (by decide) (by decide) ha.symm

end Path

end DnsZones
