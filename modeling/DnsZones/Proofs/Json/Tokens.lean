import DnsZones.Json.Reader
import DnsZones.Proofs.Numeral
import Mathlib.Data.List.Chain
import Mathlib.Data.List.TakeWhile
import Mathlib.Tactic.FinCases

/-!
# Reading Tokens That Were Written

The tokens that the text of a string, a number or a mark is read as.

Every character of a text is written for itself in a string literal, most as they
are and some as an escape, and is read as one piece of the literal; none of these
pieces is half of a surrogate pair, so they denote the text again. A natural number
that fits into 64 bits is read as itself, provided that what follows cannot belong
to a number: nothing but the next character decides where a number ends. A mark is
such a character, so tokens can be told apart where of any two in a row one is a
mark.

The reader of a whole text counts its steps. One step for each character is more
than it needs, so reading a token is stated for any larger number of steps.

## Main definitions

* `Json.quoted`: The characters of a string literal.
* `Json.pieceOf`: What a character is read as from it.
* `Json.EndsNumber`: A character that no number goes on with.
* `Json.Token.chars`, `Json.Token.IsWritten`: Tokens as text.
* `Json.AreApart`: Two tokens that may stand side by side.

## Theorems

* `Json.toList_writeString`, `Json.readToken_quoted`: A text is written as its string literal
  and read from it.
* `Json.readToken_natural`: A number is read.
* `Json.readTokens_token`, `Json.readTokens_tokens`: One token is read, and many.
* `Json.readTokens_of_spaces`: White space at the end.
-/

namespace DnsZones

namespace Json

variable {c d : Char} {cs ds rest : List Char} {n : Nat}

/-! ### String literals -/

/-- What a character of a text is read as from its string literal: an escape by number gives a
    unit of UTF-16, and anything else the character. -/
def pieceOf (c : Char) : Piece :=
  if c.toNat < 32 ∧ c ≠ '\n' ∧ c ≠ '\r' ∧ c ≠ '\t' ∧ c.toNat ≠ 8 ∧ c.toNat ≠ 12 then
    .unit c.toNat
  else .char c

/-- A character that is not escaped stands for itself. -/
theorem escape_of_not (h : ¬(c = '"' ∨ c = '\\' ∨ c.toNat < 32)) :
    escape c = String.singleton c := by
  have hne : ∀ d : Char, d.toNat < 32 → c ≠ d := by
    rintro d hd rfl
    exact h (.inr (.inr hd))
  rw [escape, if_neg fun hc => h (.inl hc), if_neg fun hc => h (.inr (.inl hc)),
    if_neg (hne '\n' (by decide)), if_neg (hne '\r' (by decide)), if_neg (hne '\t' (by decide)),
    if_neg fun hc => h (.inr (.inr (by omega))), if_neg fun hc => h (.inr (.inr (by omega))),
    if_neg fun hc => h (.inr (.inr hc))]

/-- The characters of a text's string literal: each is written for itself. -/
def quoted (s : String) : List Char :=
  '"' :: (s.toList.flatMap (fun c => (escape c).toList) ++ ['"'])

theorem toList_writeString (before s : String) :
    (writeString before s).toList = before.toList ++ quoted s := by
  have hfold : ∀ (cs : List Char) (out : String),
      (cs.foldl (fun out c => if c = '"' ∨ c = '\\' ∨ c.toNat < 32 then out ++ escape c
        else out.push c) out).toList = out.toList ++ cs.flatMap (fun c => (escape c).toList) := by
    intro cs
    induction cs with
    | nil => exact fun out => (List.append_nil _).symm
    | cons c cs ih =>
        intro out
        rw [List.foldl_cons, ih, List.flatMap_cons, ← List.append_assoc]
        congr 1
        split
        · rw [String.toList_append]
        · next h => rw [escape_of_not h, String.toList_push, String.toList_singleton]
  rw [writeString, String.toList_push, String.foldl_eq_foldl_toList, hfold,
    String.toList_push, List.append_assoc, List.append_assoc]
  rfl

/-- The numeral in the escape of a control character. -/
theorem hexWord?_hexDigit {n : Nat} (h : n < 32) :
    hexWord? '0' '0' (hexDigit (n / 16)) (hexDigit (n % 16)) = some n := by
  revert n
  decide

/-- What a character is written as in a string literal is read as one piece. -/
theorem readPieces_escape (read : List Piece) (c : Char) (cs : List Char) :
    readPieces read ((escape c).toList ++ cs) = readPieces (pieceOf c :: read) cs := by
  by_cases hspecial : c = '"' ∨ c = '\\' ∨ c.toNat < 32
  · -- The usual escapes first, then those by number.
    by_cases hletter : c ∈ ['"', '\\', '\n', '\r', '\t', Char.ofNat 8, Char.ofNat 12]
    · fin_cases hletter
      all_goals rfl
    · simp only [List.mem_cons, List.not_mem_nil, or_false, not_or] at hletter
      rcases hletter with ⟨hquote, hslash, hn, hr, ht, hb, hf⟩
      have hlt : c.toNat < 32 := (hspecial.resolve_left hquote).resolve_left hslash
      have hne : ∀ n, c ≠ Char.ofNat n → c.toNat ≠ n := by
        rintro n hc rfl
        exact hc (Char.ofNat_toNat c).symm
      have hpiece : pieceOf c = .unit c.toNat := if_pos ⟨hlt, hn, hr, ht, hne 8 hb, hne 12 hf⟩
      rw [escape, if_neg hquote, if_neg hslash, if_neg hn, if_neg hr, if_neg ht,
        if_neg (hne 8 hb), if_neg (hne 12 hf), if_pos hlt, hpiece, String.toList_append,
        String.toList_ofList]
      simp only [String.toList_ofList, List.cons_append, List.nil_append]
      rw [readPieces, hexWord?_hexDigit hlt]
  · have hpiece : pieceOf c = .char c := if_neg fun h => hspecial (.inr (.inr h.1))
    rw [escape_of_not hspecial, String.toList_singleton, List.cons_append, List.nil_append, hpiece]
    rw [not_or, not_or] at hspecial
    rcases hspecial with ⟨hquote, hslash, hlt⟩
    rw [readPieces]
    · rw [if_neg (by simp only [hlt, hslash, or_self, not_false_eq_true])]
    · -- The other branches need a quote or a backslash.
      exact hquote
    · rintro - - - - - rfl -
      exact hslash rfl
    · rintro - - rfl -
      exact hslash rfl

/-- A text's string literal is read up to its quote. -/
theorem readPieces_escaped (read : List Piece) (cs ds : List Char) :
    readPieces read (ds.flatMap (fun c => (escape c).toList) ++ '"' :: cs)
      = some ((ds.map pieceOf).reverse ++ read, cs) := by
  induction ds generalizing read with
  | nil => rfl
  | cons d ds ih =>
      rw [List.flatMap_cons, List.append_assoc, readPieces_escape, ih, List.map_cons,
        List.reverse_cons, List.append_assoc]
      rfl

/-- The pieces of a text denote it. -/
theorem assemble_pieceOf (before : String) (cs : List Char) :
    assemble before (cs.map pieceOf) = some (before ++ String.ofList cs) := by
  -- No unit among them is half of a surrogate pair.
  have hcons : ∀ (before : String) (c : Char) (pieces : List Piece),
      assemble before (pieceOf c :: pieces) = assemble (before.push c) pieces := by
    intro before c pieces
    rw [pieceOf]
    split
    · next h =>
        have htrailing : isTrailing c.toNat = false := by
          rw [isTrailing, Bool.and_eq_false_iff]
          exact .inl (decide_eq_false (by omega))
        have hleading : isLeading c.toNat = false := by
          rw [isLeading, Bool.and_eq_false_iff]
          exact .inl (decide_eq_false (by omega))
        rw [assemble.eq_def]
        simp only [htrailing, hleading, Char.ofNat_toNat]
        rfl
    · rw [assemble]
  induction cs generalizing before with
  | nil => rw [List.map_nil, assemble, String.ofList_nil, String.append_empty]
  | cons c cs ih =>
      rw [List.map_cons, hcons, ih, String.push_eq_append, String.append_assoc,
        String.singleton_eq_ofList, ← String.ofList_append]
      rfl

/-- A text's string literal is read. -/
theorem readToken_quoted (s : String) (cs : List Char) :
    readToken (quoted s ++ cs) = (.text (some s), cs) := by
  rw [quoted, List.cons_append, List.append_assoc, List.singleton_append, readToken,
    readPieces_escaped]
  simp only [List.append_nil, List.reverse_reverse, assemble_pieceOf, String.empty_append,
    String.ofList_toList]

/-! ### Numbers -/

/-- A character that no number goes on with. -/
def EndsNumber (c : Char) : Prop := isDigit c = false ∧ c ≠ '.' ∧ c ≠ 'e' ∧ c ≠ 'E'

instance (c : Char) : Decidable (EndsNumber c) :=
  inferInstanceAs (Decidable (isDigit c = false ∧ c ≠ '.' ∧ c ≠ 'e' ∧ c ≠ 'E'))

theorem isDigit_of_mem_toDigits (h : c ∈ Nat.toDigits 10 n) : isDigit c = true := by
  rw [isDigit, Bool.and_eq_true, decide_eq_true_eq, decide_eq_true_eq]
  exact Numeral.toNat_of_isDigit (Nat.isDigit_of_mem_toDigits (by decide) (by decide) h)

/-- The integer part of a number that was written. -/
theorem readInteger?_toDigits (n : Nat) (h : isDigit c = false) :
    readInteger? (Nat.toDigits 10 n ++ c :: cs) = some (Nat.toDigits 10 n, c :: cs) := by
  rcases Nat.eq_zero_or_pos n with rfl | hpos
  · rfl
  · have hhead := Numeral.head?_toDigits_ne_zero hpos
    have htake : (Nat.toDigits 10 n ++ c :: cs).takeWhile isDigit = Nat.toDigits 10 n := by
      rw [List.takeWhile_append_of_pos fun d hd => isDigit_of_mem_toDigits hd,
        List.takeWhile_cons_of_neg (by rw [h]; exact Bool.false_ne_true), List.append_nil]
    have hdrop : (Nat.toDigits 10 n ++ c :: cs).dropWhile isDigit = c :: cs := by
      rw [List.dropWhile_append_of_pos fun d hd => isDigit_of_mem_toDigits hd,
        List.dropWhile_cons_of_neg (by rw [h]; exact Bool.false_ne_true)]
    rcases List.exists_cons_of_ne_nil (Nat.toDigits_ne_nil (b := 10) (n := n)) with ⟨d, ds, hds⟩
    rw [hds] at hhead htake hdrop ⊢
    rw [readInteger?, htake]
    · rw [hdrop]
    · intro _ he
      exact hhead (congrArg some (List.cons.inj he).1)

/-- Digits whose number fits are all taken. -/
theorem takeInteger_of_lt {significand : Nat}
    (h : Nat.ofDigitChars 10 ds significand < Scaled.significandBound) :
    Scaled.takeInteger significand (digitValues ds) = ⟨Nat.ofDigitChars 10 ds significand, 0⟩ := by
  induction ds generalizing significand with
  | nil => rw [Nat.ofDigitChars_nil]; rfl
  | cons d ds ih =>
      rw [Nat.ofDigitChars_cons] at h ⊢
      -- More digits never make the number smaller, so it fits all along.
      have hle : 10 * significand + (d.toNat - '0'.toNat)
          ≤ Nat.ofDigitChars 10 ds (10 * significand + (d.toNat - '0'.toNat)) := by
        rw [Nat.ofDigitChars_eq_ofDigitChars_zero]
        exact Nat.le_trans (Nat.le_mul_of_pos_left _ (Nat.pow_pos (by decide)))
          (Nat.le_add_right _ _)
      have hextend : Scaled.extend? significand (d.toNat - '0'.toNat)
          = some (10 * significand + (d.toNat - '0'.toNat)) := if_pos (Nat.lt_of_le_of_lt hle h)
      rw [digitValues, List.map_cons, Scaled.takeInteger, hextend]
      exact ih h

/-- A number that was written has neither a fraction nor an exponent. -/
theorem readFraction?_of_endsNumber (cs : List Char) (h : EndsNumber c) :
    readFraction? (c :: cs) = some ([], c :: cs)
      ∧ readExponent? (c :: cs) = some (none, c :: cs) := by
  rcases h with ⟨-, hdot, he, hE⟩
  constructor
  · rw [readFraction?]
    intro _ heq
    exact hdot (List.cons.inj heq).1
  · have hfirst : ∀ (d : Char) (ds : List Char), d = 'e' ∨ d = 'E' → c :: cs ≠ d :: ds := by
      intro d ds hd heq
      rw [← (List.cons.inj heq).1] at hd
      exact hd.elim he hE
    rw [readExponent?]
    all_goals exact fun _ => hfirst _ _ (by decide)

/-- A natural number of 64 bits is read as itself. -/
theorem readNumber?_toDigits (cs : List Char) (hn : n < Scaled.significandBound)
    (h : EndsNumber c) :
    readNumber? false (Nat.toDigits 10 n ++ c :: cs) = some (.integer n, c :: cs) := by
  -- Without a fraction nothing is scaled.
  have hscaled : Scaled.ofDigits (digitValues (Nat.toDigits 10 n)) (digitValues []) false
      (digitValues []) = ⟨n, 0⟩ := by
    have hvalue := Nat.ofDigitChars_ten_toDigits (n := n)
    have htake : Scaled.takeInteger 0 (digitValues (Nat.toDigits 10 n))
        = ⟨Nat.ofDigitChars 10 (Nat.toDigits 10 n) 0, 0⟩ :=
      takeInteger_of_lt (by rw [hvalue]; exact hn)
    rw [Scaled.ofDigits, htake, hvalue]
    rfl
  rcases readFraction?_of_endsNumber cs h with ⟨hfraction, hexponent⟩
  simp only [readNumber?, readInteger?_toDigits n h.1, hfraction, hexponent, Option.getD_none,
    hscaled]
  rfl

/-- The token of a natural number of 64 bits. -/
theorem readToken_natural (cs : List Char) (hn : n < Scaled.significandBound) (h : EndsNumber c) :
    readToken (Nat.toDigits 10 n ++ c :: cs) = (.scalar (natural n), c :: cs) := by
  have hnumber := readNumber?_toDigits cs hn h
  rcases List.exists_cons_of_ne_nil (Nat.toDigits_ne_nil (b := 10) (n := n)) with ⟨d, ds, hds⟩
  have hd : d.isDigit = true := Nat.isDigit_of_mem_toDigits (b := 10) (n := n) (by decide)
    (by decide) (by rw [hds]; exact List.mem_cons_self)
  -- The first digit begins no other token.
  have hne : ∀ other : Char, other.isDigit = false → d ≠ other := by
    rintro other ho rfl
    rw [hd] at ho
    cases ho
  rw [hds, List.cons_append] at hnumber ⊢
  rw [readToken]
  · rw [if_neg, hnumber]
    · rfl
    · simp only [hne '[' rfl, hne ']' rfl, hne '\x7b' rfl, hne '\x7d' rfl, hne ',' rfl, hne ':' rfl,
        or_self, not_false_eq_true]
  · exact hne '"' rfl
  · rintro - rfl -
    exact hne 'n' rfl rfl
  · rintro - rfl -
    exact hne 't' rfl rfl
  · rintro - rfl -
    exact hne 'f' rfl rfl
  · exact hne '-' rfl

/-! ### Many tokens -/

namespace Token

/-- The text of a token. -/
def chars : Token → List Char
  | mark c => [c]
  | text literal => quoted (literal.getD "")
  | scalar value => value.write.toList
  | invalid => []

/-- The characters that are tokens by themselves. -/
def marks : List Char := ['[', ']', '\x7b', '\x7d', ',', ':']

/-- A token that is read from its own text. -/
inductive IsWritten : Token → Prop
  | mark {c : Char} (h : c ∈ marks) : IsWritten (.mark c)
  | text (s : String) : IsWritten (.text (some s))
  | null : IsWritten (.scalar .null)
  | bool (b : Bool) : IsWritten (.scalar (.bool b))
  | natural {n : Nat} (h : n < Scaled.significandBound) : IsWritten (.scalar (Json.natural n))

/-- Whether a token ends where its text does, whatever comes after it. -/
def isMark : Token → Bool
  | mark _ => true
  | _ => false

variable {token : Token}

theorem endsNumber_of_mem_marks (h : c ∈ marks) : EndsNumber c := by
  fin_cases h
  all_goals decide

theorem chars_natural (n : Nat) : (scalar (Json.natural n)).chars = Nat.toDigits 10 n := by
  simp only [chars, Json.natural, write, writeAfter, String.empty_append]
  exact Nat.toList_repr

/-- A token that is read takes some text. -/
theorem IsWritten.chars_ne_nil (h : token.IsWritten) : token.chars ≠ [] := by
  cases h with
  | mark _ => exact List.cons_ne_nil _ _
  | text s => exact List.cons_ne_nil _ _
  | null => exact List.cons_ne_nil _ _
  | bool b =>
      cases b with
      | false => exact List.cons_ne_nil _ _
      | true => exact List.cons_ne_nil _ _
  | natural _ =>
      rw [chars_natural]
      exact Nat.toDigits_ne_nil

end Token

/-- One step of reading tokens. -/
theorem readTokens_cons {token : Token} (read : List Token) (steps : Nat)
    (hs : isSpace c = false) (ht : readToken (c :: cs) = (token, rest)) (hv : token ≠ .invalid) :
    readTokens read (steps + 1) (c :: cs) = readTokens (token :: read) steps rest := by
  rw [readTokens, List.dropWhile_cons_of_neg (by rw [hs]; exact Bool.false_ne_true)]
  dsimp only
  rw [ht]
  cases token with
  | invalid => exact absurd rfl hv
  | mark c => rfl
  | text literal => rfl
  | scalar value => rfl

/-- Read a natural number of 64 bits. -/
theorem readTokens_natural (read : List Token) (steps : Nat) (cs : List Char)
    (hn : n < Scaled.significandBound) (h : EndsNumber c) :
    readTokens read (steps + 1) (Nat.toDigits 10 n ++ c :: cs)
      = readTokens (.scalar (natural n) :: read) steps (c :: cs) := by
  have htoken := readToken_natural cs hn h
  rcases List.exists_cons_of_ne_nil (Nat.toDigits_ne_nil (b := 10) (n := n)) with ⟨d, ds, hds⟩
  have hd : isDigit d = true := isDigit_of_mem_toDigits (n := n) (by
    rw [hds]
    exact List.mem_cons_self)
  rw [hds, List.cons_append] at htoken ⊢
  refine readTokens_cons read steps ?_ htoken nofun
  -- A digit is no white space.
  rw [← Bool.not_eq_true]
  intro hs
  simp only [isSpace, Bool.or_eq_true, beq_iff_eq] at hs
  rcases hs with ((rfl | rfl) | rfl) | rfl
  all_goals cases hd

/-- Read a token. Where a number ends depends on the next character. -/
theorem readTokens_token {token : Token} (h : token.IsWritten) (read : List Token) (steps : Nat)
    (hnext : token.isMark = true ∨ ∃ c ds, EndsNumber c ∧ cs = c :: ds) :
    readTokens read (steps + 1) (token.chars ++ cs) = readTokens (token :: read) steps cs := by
  cases h with
  | mark h =>
      refine readTokens_cons read steps ?_ ?_ nofun
      · fin_cases h
        all_goals rfl
      · fin_cases h
        all_goals rfl
  | text s => exact readTokens_cons read steps rfl (readToken_quoted s cs) nofun
  | null => exact readTokens_cons read steps rfl rfl nofun
  | bool b =>
      cases b with
      | false => exact readTokens_cons read steps rfl rfl nofun
      | true => exact readTokens_cons read steps rfl rfl nofun
  | natural hn =>
      rcases hnext.resolve_left Bool.false_ne_true with ⟨c, ds, hc, rfl⟩
      rw [Token.chars_natural]
      exact readTokens_natural read steps ds hn hc

/-- Nothing is read from white space at the end. -/
theorem readTokens_of_spaces (read : List Token) (steps : Nat) (h : ∀ c ∈ cs, isSpace c = true) :
    readTokens read steps cs = read := by
  cases steps with
  | zero => rw [readTokens]
  | succ steps =>
      have hnil : cs.dropWhile isSpace = [] := List.dropWhile_eq_nil_iff.mpr h
      rw [readTokens, hnil]

/-- Of two tokens in a row one is a mark. -/
def AreApart (left right : Token) : Prop := left.isMark = true ∨ right.isMark = true

/-- Tokens are read from their texts, if the last is a mark and so is one of any two in a row. -/
theorem readTokens_tokens {ts : List Token} (read : List Token) (steps : Nat)
    (hwritten : ∀ token ∈ ts, token.IsWritten) (hchain : ts.IsChain AreApart)
    (hlast : ∀ token ∈ ts.getLast?, token.isMark = true) :
    readTokens read (steps + ts.length) (ts.flatMap Token.chars ++ cs)
      = readTokens (ts.reverse ++ read) steps cs := by
  induction ts generalizing read with
  | nil => rfl
  | cons token ts ih =>
      have hnext : token.isMark = true ∨ ∃ c ds, EndsNumber c
          ∧ ts.flatMap Token.chars ++ cs = c :: ds := by
        cases ts with
        | nil => exact .inl (hlast token rfl)
        | cons next ts =>
            refine (List.isChain_cons_cons.mp hchain).1.imp_right fun hmark => ?_
            cases hwritten next (List.mem_cons_of_mem _ List.mem_cons_self) with
            | mark h => exact ⟨_, _, Token.endsNumber_of_mem_marks h, rfl⟩
            | text s => cases hmark
            | null => cases hmark
            | bool b => cases hmark
            | natural h => cases hmark
      rw [List.flatMap_cons, List.append_assoc, List.length_cons, ← Nat.add_assoc,
        readTokens_token (hwritten token List.mem_cons_self) read _ hnext,
        ih _ (fun t ht => hwritten t (List.mem_cons_of_mem _ ht)) hchain.tail
          (fun t ht => hlast t (by
            cases ts with
            | nil => cases ht
            | cons next ts => exact ht)),
        List.reverse_cons, List.append_assoc]
      rfl

/-- No more tokens than characters. -/
theorem length_le_of_isWritten {ts : List Token} (h : ∀ token ∈ ts, token.IsWritten) :
    ts.length ≤ (ts.flatMap Token.chars).length := by
  induction ts with
  | nil => exact Nat.le_refl _
  | cons token ts ih =>
      have hhead := List.length_pos_iff.mpr (h token List.mem_cons_self).chars_ne_nil
      have htail := ih fun t ht => h t (List.mem_cons_of_mem _ ht)
      rw [List.flatMap_cons, List.length_append, List.length_cons]
      omega

end Json

end DnsZones
