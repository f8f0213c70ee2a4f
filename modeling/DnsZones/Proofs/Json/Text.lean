import DnsZones.Proofs.Json.Tokens

/-!
# Reading What Was Written

A value that was written is read as itself.

The text of a value is that of its tokens, one after the other, and between two
that are no marks stands a mark; so the text falls into these tokens again. Reading
a value from its tokens leaves the unfinished arrays and objects around it as they
were, so a value inside another needs no more than the same statement. Each part
follows the two lists inside of a value as well as the value.

What the program writes holds no number but natural ones of 64 bits, and no literal
that denotes no text. At the top it is always an object.

## Main definitions

* `Json.tokensOf`: The tokens of a value that is written.
* `Json.IsWritten`, `Json.AreWritten`: All of them can be read.

## Theorems

* `Json.toList_writeAfter`: The characters of a value.
* `Json.isChain_tokensOf`: Its tokens can be told apart.
* `Json.readValue_tokensOf`: It is read from its tokens.
* `Json.read_object`: An object is read from its text.
-/

namespace DnsZones

namespace Json

/-! ### Characters -/

/-- The bytes of a text are read as the text. -/
theorem fromUTF8?_toUTF8 (s : String) : String.fromUTF8? s.toUTF8 = some s := by
  rw [String.fromUTF8?]
  split
  · rfl
  · next h => exact absurd s.isValidUTF8 h

mutual

/-- The tokens of a value that is written. -/
def tokensOf : Json → List Token
  | null => [.scalar .null]
  | bool b => [.scalar (.bool b)]
  | number n => [.scalar (.number n)]
  | string literal => [.text literal]
  | array items => .mark '[' :: (tokensOfItems true items ++ [.mark ']'])
  | object members => .mark '\x7b' :: (tokensOfMembers true members ++ [.mark '\x7d'])
  | cut => [.scalar .cut]

/-- The tokens of the items of an array and of the commas before them. -/
def tokensOfItems (isFirst : Bool) : List Json → List Token
  | [] => []
  | item :: items =>
    (if isFirst then [] else [.mark ',']) ++ (tokensOf item ++ tokensOfItems false items)

/-- The tokens of the members of an object and of the commas before them. -/
def tokensOfMembers (isFirst : Bool) : List (Literal × Json) → List Token
  | [] => []
  | (name, value) :: members =>
    (if isFirst then [] else [.mark ','])
      ++ (.text name :: .mark ':' :: (tokensOf value ++ tokensOfMembers false members))

end

mutual

/-- A value is written as the texts of its tokens. -/
theorem toList_writeAfter (before : String) (json : Json) :
    (writeAfter before json).toList = before.toList ++ (tokensOf json).flatMap Token.chars := by
  cases json with
  | null => exact String.toList_append
  | bool b =>
      cases b with
      | false => exact String.toList_append
      | true => exact String.toList_append
  | number n =>
      cases n with
      | integer n =>
          rw [writeAfter, String.toList_append, tokensOf, List.flatMap_singleton, Token.chars,
            write, writeAfter, String.empty_append]
      | other isFinite =>
          rw [writeAfter, String.toList_append, tokensOf, List.flatMap_singleton, Token.chars,
            write, writeAfter, String.empty_append]
  | string literal =>
      rw [writeAfter, toList_writeString, tokensOf, List.flatMap_singleton, Token.chars]
  | array items =>
      rw [writeAfter, String.toList_push, toList_writeItems, String.toList_push, tokensOf,
        List.flatMap_cons, List.flatMap_append]
      simp only [Token.chars, List.append_assoc, List.flatMap_cons, List.flatMap_nil,
        List.append_nil]
  | object members =>
      rw [writeAfter, String.toList_push, toList_writeMembers, String.toList_push, tokensOf,
        List.flatMap_cons, List.flatMap_append]
      simp only [Token.chars, List.append_assoc, List.flatMap_cons, List.flatMap_nil,
        List.append_nil]
  | cut => exact (List.append_nil _).symm

theorem toList_writeItems (before : String) (isFirst : Bool) (items : List Json) :
    (writeItems before isFirst items).toList
      = before.toList ++ (tokensOfItems isFirst items).flatMap Token.chars := by
  cases items with
  | nil => rw [writeItems, tokensOfItems, List.flatMap_nil, List.append_nil]
  | cons item items =>
      rw [writeItems, toList_writeItems, toList_writeAfter, tokensOfItems, List.flatMap_append,
        List.flatMap_append]
      cases isFirst with
      | false =>
          simp only [Bool.false_eq_true, if_false, String.toList_push, List.append_assoc]
          rfl
      | true => simp only [if_true, List.flatMap_nil, List.nil_append, List.append_assoc]

theorem toList_writeMembers (before : String) (isFirst : Bool)
    (members : List (Literal × Json)) :
    (writeMembers before isFirst members).toList
      = before.toList ++ (tokensOfMembers isFirst members).flatMap Token.chars := by
  match members with
  | [] => rw [writeMembers, tokensOfMembers, List.flatMap_nil, List.append_nil]
  | (name, value) :: members =>
      rw [writeMembers, toList_writeMembers, toList_writeAfter, String.toList_push,
        toList_writeString, tokensOfMembers, List.flatMap_append, List.flatMap_cons,
        List.flatMap_cons, List.flatMap_append, Token.chars, Token.chars]
      cases isFirst with
      | false =>
          simp only [Bool.false_eq_true, if_false, String.toList_push, List.append_assoc]
          rfl
      | true => simp only [if_true, List.flatMap_nil, List.nil_append, List.append_assoc]

end

/-- The text of a value, as it can be computed. -/
theorem write_eq (json : Json) :
    json.write = String.ofList ((tokensOf json).flatMap Token.chars) := by
  rw [← String.toList_inj, String.toList_ofList, write, toList_writeAfter, String.toList_empty,
    List.nil_append]

/-! ### Tokens side by side -/

/-- A sequence of tokens that may stand before a mark. -/
theorem isChain_append_mark {ts us : List Token} {c : Char} (ht : ts.IsChain AreApart)
    (hu : (Token.mark c :: us).IsChain AreApart) : (ts ++ .mark c :: us).IsChain AreApart := by
  refine ht.append hu fun t _ u h => ?_
  cases h
  exact .inr rfl

theorem isChain_mark_cons {ts : List Token} {c : Char} (h : ts.IsChain AreApart) :
    (Token.mark c :: ts).IsChain AreApart :=
  h.cons fun _ _ => .inl rfl

mutual

theorem isChain_tokensOf (json : Json) : (tokensOf json).IsChain AreApart := by
  cases json with
  | null => exact List.isChain_singleton _
  | bool b => exact List.isChain_singleton _
  | number n => exact List.isChain_singleton _
  | string literal => exact List.isChain_singleton _
  | array items => exact isChain_mark_cons (isChain_tokensOfItems true items ']')
  | object members => exact isChain_mark_cons (isChain_tokensOfMembers true members '\x7d')
  | cut => exact List.isChain_singleton _

theorem isChain_tokensOfItems (isFirst : Bool) (items : List Json) (c : Char) :
    (tokensOfItems isFirst items ++ [Token.mark c]).IsChain AreApart := by
  cases items with
  | nil => exact List.isChain_singleton _
  | cons item items =>
      have hitem : (tokensOf item ++ (tokensOfItems false items ++ [Token.mark c])).IsChain
          AreApart := by
        have hrest := isChain_tokensOfItems false items c
        cases items with
        | nil => exact isChain_append_mark (isChain_tokensOf item) hrest
        | cons next items => exact isChain_append_mark (isChain_tokensOf item) hrest
      rw [tokensOfItems, List.append_assoc, List.append_assoc]
      cases isFirst with
      | false => exact isChain_mark_cons hitem
      | true => exact hitem

theorem isChain_tokensOfMembers (isFirst : Bool) (members : List (Literal × Json)) (c : Char) :
    (tokensOfMembers isFirst members ++ [Token.mark c]).IsChain AreApart := by
  match members with
  | [] => exact List.isChain_singleton _
  | (name, value) :: members =>
      have hvalue : (tokensOf value ++ (tokensOfMembers false members ++ [Token.mark c])).IsChain
          AreApart := by
        have hrest := isChain_tokensOfMembers false members c
        match members with
        | [] => exact isChain_append_mark (isChain_tokensOf value) hrest
        | (_, _) :: _ => exact isChain_append_mark (isChain_tokensOf value) hrest
      have hmember : (Token.text name :: Token.mark ':'
          :: (tokensOf value ++ (tokensOfMembers false members ++ [Token.mark c]))).IsChain
          AreApart :=
        isChain_append_mark (List.isChain_singleton _) (isChain_mark_cons hvalue)
      rw [tokensOfMembers, List.append_assoc, List.cons_append, List.cons_append, List.append_assoc]
      cases isFirst with
      | false => exact isChain_mark_cons hmember
      | true => exact hmember

end

/-! ### Values -/

mutual

/-- A value is read from its tokens, where a value is expected and at the beginning of an array. -/
theorem readValue_tokensOf (json : Json) (ts : List Token) (frames : List Frame) :
    readValue (tokensOf json ++ ts) .value frames = readValue ts (.next json) frames
      ∧ readValue (tokensOf json ++ ts) .item frames
          = readValue ts (.next json) (.array [] :: frames) := by
  cases json with
  | null => exact ⟨rfl, rfl⟩
  | bool b => exact ⟨rfl, rfl⟩
  | number n => exact ⟨rfl, rfl⟩
  | string literal => exact ⟨rfl, rfl⟩
  | array items =>
      rw [tokensOf, List.cons_append, List.append_assoc, List.singleton_append, readValue,
        readValue]
      exact ⟨readValue_tokensOfItems items ts frames, readValue_tokensOfItems items ts _⟩
  | object members =>
      rw [tokensOf, List.cons_append, List.append_assoc, List.singleton_append, readValue,
        readValue]
      exact ⟨readValue_tokensOfMembers members ts frames, readValue_tokensOfMembers members ts _⟩
  | cut => exact ⟨rfl, rfl⟩

/-- An array is read after its bracket. -/
theorem readValue_tokensOfItems (items : List Json) (ts : List Token) (frames : List Frame) :
    readValue (tokensOfItems true items ++ .mark ']' :: ts) .item frames
      = readValue ts (.next (.array items)) frames := by
  cases items with
  | nil => rfl
  | cons item items =>
      rw [tokensOfItems, if_pos rfl, List.nil_append, List.append_assoc,
        (readValue_tokensOf item _ _).2, readValue_moreItems item items ts [] frames]
      rfl

/-- The rest of an array is read after one of its items. -/
theorem readValue_moreItems (item : Json) (items : List Json) (ts : List Token)
    (before : List Json) (frames : List Frame) :
    readValue (tokensOfItems false items ++ .mark ']' :: ts) (.next item) (.array before :: frames)
      = readValue ts (.next (.array (before.reverse ++ item :: items))) frames := by
  cases items with
  | nil =>
      rw [tokensOfItems, List.nil_append, readValue, List.reverse_cons]
  | cons next items =>
      rw [tokensOfItems, if_neg Bool.false_ne_true, List.singleton_append, List.cons_append,
        List.append_assoc, readValue, (readValue_tokensOf next _ _).1,
        readValue_moreItems next items ts _ frames, List.reverse_cons, List.append_assoc]
      rfl

/-- An object is read after its brace. -/
theorem readValue_tokensOfMembers (members : List (Literal × Json)) (ts : List Token)
    (frames : List Frame) :
    readValue (tokensOfMembers true members ++ .mark '\x7d' :: ts) (.name [] true) frames
      = readValue ts (.next (.object members)) frames := by
  match members with
  | [] => rfl
  | (name, value) :: members =>
      rw [tokensOfMembers, if_pos rfl, List.nil_append, List.cons_append, List.cons_append,
        List.append_assoc, readValue, readValue, (readValue_tokensOf value _ _).1,
        readValue_moreMembers name value members ts [] frames]
      rfl

/-- The rest of an object is read after one of its members. -/
theorem readValue_moreMembers (name : Literal) (value : Json) (members : List (Literal × Json))
    (ts : List Token) (before : List (Literal × Json)) (frames : List Frame) :
    readValue (tokensOfMembers false members ++ .mark '\x7d' :: ts) (.next value)
        (.object before name :: frames)
      = readValue ts (.next (.object (before.reverse ++ (name, value) :: members))) frames := by
  match members with
  | [] => rw [tokensOfMembers, List.nil_append, readValue, List.reverse_cons]
  | (following, next) :: members =>
      rw [tokensOfMembers, if_neg Bool.false_ne_true, List.singleton_append, List.cons_append,
        List.cons_append, List.cons_append, List.append_assoc, readValue, readValue, readValue,
        (readValue_tokensOf next _ _).1, readValue_moreMembers following next members ts _ frames,
        List.reverse_cons, List.append_assoc]
      rfl

end

/-- A value all of whose tokens can be read. -/
def IsWritten (json : Json) : Prop := ∀ token ∈ tokensOf json, token.IsWritten

/-- An object that was written is read, and so it is with white space after it. -/
theorem read_object {members : List (Literal × Json)} {text : String}
    (hwritten : (object members).IsWritten) (spaces : List Char)
    (hspaces : ∀ c ∈ spaces, isSpace c = true)
    (htext : text.toList = (object members).write.toList ++ spaces) :
    Document.read text = ⟨.object members, true⟩ := by
  have hchars : text.toList = (tokensOf (.object members)).flatMap Token.chars ++ spaces := by
    rw [htext, write_eq, String.toList_ofList]
  have hlast : ∀ token ∈ (tokensOf (.object members)).getLast?, token.isMark = true := by
    intro token h
    rw [tokensOf, ← List.cons_append, List.getLast?_append, List.getLast?_singleton,
      Option.some_or] at h
    cases h
    rfl
  -- There are more steps than tokens.
  obtain ⟨steps, hsteps⟩ : ∃ steps, text.toList.length
      = steps + (tokensOf (.object members)).length := by
    refine ⟨_, (Nat.sub_add_cancel ?_).symm⟩
    rw [hchars, List.length_append]
    exact Nat.le_trans (length_le_of_isWritten hwritten) (Nat.le_add_right _ _)
  have htokens : tokens text = tokensOf (.object members) := by
    rw [tokens, hsteps, hchars, readTokens_tokens [] steps hwritten (isChain_tokensOf _) hlast,
      readTokens_of_spaces _ _ hspaces, List.append_nil, List.reverse_reverse]
  rw [Document.read, htokens, ← List.append_nil (tokensOf _), (readValue_tokensOf _ [] []).1]
  rfl

/-! ### What can be read -/

theorem isWritten_text (s : String) : (text s).IsWritten := by
  intro token h
  rw [List.mem_singleton.mp h]
  exact .text s

theorem isWritten_bool (b : Bool) : (bool b).IsWritten := by
  intro token h
  rw [List.mem_singleton.mp h]
  exact .bool b

theorem isWritten_null : IsWritten null := by
  intro token h
  rw [List.mem_singleton.mp h]
  exact .null

theorem isWritten_natural (n : UInt32) : (natural n.toNat).IsWritten := by
  intro token h
  rw [List.mem_singleton.mp h]
  exact .natural (Nat.lt_trans n.toNat_lt (by decide))

theorem isWritten_array {items : List Json} (h : ∀ item ∈ items, item.IsWritten) :
    (array items).IsWritten := by
  have hitems : ∀ isFirst, ∀ token ∈ tokensOfItems isFirst items, token.IsWritten := by
    induction items with
    | nil => exact fun _ _ hm => nomatch hm
    | cons item items ih =>
        intro isFirst token hm
        rw [tokensOfItems, List.mem_append, List.mem_append] at hm
        rcases hm with hm | hm | hm
        · cases isFirst with
          | false =>
              rw [List.mem_singleton.mp hm]
              exact .mark (by decide)
          | true => nomatch hm
        · exact h item List.mem_cons_self token hm
        · exact ih (fun other ho => h other (List.mem_cons_of_mem _ ho)) false token hm
  intro token hm
  rw [tokensOf, List.mem_cons, List.mem_append, List.mem_singleton] at hm
  rcases hm with rfl | hm | rfl
  · exact .mark (by decide)
  · exact hitems true token hm
  · exact .mark (by decide)

/-- Members all of which have a name and a value that can be read. -/
def AreWritten (members : List (Literal × Json)) : Prop :=
  ∀ e ∈ members, e.1.isSome = true ∧ e.2.IsWritten

theorem areWritten_nil : AreWritten [] := nofun

theorem AreWritten.cons {members : List (Literal × Json)} {json : Json} (name : String)
    (hjson : json.IsWritten) (h : AreWritten members) :
    AreWritten ((some name, json) :: members) := by
  intro e he
  rcases List.mem_cons.mp he with rfl | he
  · exact ⟨rfl, hjson⟩
  · exact h e he

theorem AreWritten.append {members others : List (Literal × Json)} (hm : AreWritten members)
    (ho : AreWritten others) : AreWritten (members ++ others) := fun e he =>
  (List.mem_append.mp he).elim (hm e) (ho e)

/-- An object can be read if its members can. -/
theorem AreWritten.object {members : List (Literal × Json)} (h : AreWritten members) :
    (Json.object members).IsWritten := by
  have hmembers : ∀ isFirst, ∀ token ∈ tokensOfMembers isFirst members, token.IsWritten := by
    induction members with
    | nil => exact fun _ _ hm => nomatch hm
    | cons member members ih =>
        rcases member with ⟨name, value⟩
        rcases h (name, value) List.mem_cons_self with ⟨hname, hvalue⟩
        intro isFirst token hm
        rw [tokensOfMembers, List.mem_append, List.mem_cons, List.mem_cons, List.mem_append] at hm
        rcases hm with hm | rfl | rfl | hm | hm
        · cases isFirst with
          | false =>
              rw [List.mem_singleton.mp hm]
              exact .mark (by decide)
          | true => nomatch hm
        · rcases Option.isSome_iff_exists.mp hname with ⟨s, rfl⟩
          exact .text s
        · exact .mark (by decide)
        · exact hvalue token hm
        · exact ih (fun other ho => h other (List.mem_cons_of_mem _ ho)) false token hm
  intro token hm
  rw [tokensOf, List.mem_cons, List.mem_append, List.mem_singleton] at hm
  rcases hm with rfl | hm | rfl
  · exact .mark (by decide)
  · exact hmembers true token hm
  · exact .mark (by decide)

end Json

end DnsZones
