import LineCalc.Proofs.Numerals
import LineCalc.Scan

/-!
What a scan finds. Each kind of token has its lexemes (`TokenKind.IsLexeme`) and may end only
where it cannot go on (`TokenKind.EndsBefore`). A scan without a limit obeys one rule for each
thing that it passes (`Scan.Reads`), and a limited scan takes the first of the tokens and refuses
nothing else (`Scan.limited`). What a scan does is proved by one induction, along the places where
it looks at a text (`Scan.along`).
-/
namespace LineCalc
open Numeral

/-- A letter, then letters and digits. -/
def IsName : Text → Prop
  | [] => False
  | first :: rest => first.isAlpha = true ∧ ∀ c ∈ rest, isNameCharacter c = true

theorem IsName.characters {name : Text} (written : IsName name) : ∀ c ∈ name, isNameCharacter c = true := by
  cases name with
  | nil => exact written.elim
  | cons first rest =>
    intro c member
    rcases List.mem_cons.mp member with rfl | later
    · exact Bool.or_eq_true_iff.mpr (Or.inl written.1)
    · exact written.2 c later

theorem letter_bounds {c : Char} (letter : c.isAlpha = true) : 65 ≤ c.toNat ∧ c.toNat ≤ 122 := by
  rcases Bool.or_eq_true_iff.mp letter with upper | lower
  · obtain ⟨low, high⟩ : 'A'.val ≤ c.val ∧ c.val ≤ 'Z'.val := of_decide_eq_true upper
    exact ⟨UInt32.le_iff_toNat_le.mp low, Nat.le_trans (UInt32.le_iff_toNat_le.mp high) (by decide)⟩
  · obtain ⟨low, high⟩ := Bool.and_eq_true_iff.mp lower
    have above : 'a'.val ≤ c.val := of_decide_eq_true low
    have below : c.val ≤ 'z'.val := of_decide_eq_true high
    exact ⟨Nat.le_trans (by decide) (UInt32.le_iff_toNat_le.mp above), UInt32.le_iff_toNat_le.mp below⟩

theorem isAlpha_of_isDigit {c : Char} (digit : c.isDigit = true) : c.isAlpha = false := by
  cases letter : c.isAlpha with
  | false => rfl
  | true =>
    have low := (digit_bounds digit).2
    have high := (letter_bounds letter).1
    omega

namespace TokenKind

/-- Nothing is written for the end. -/
inductive IsLexeme : TokenKind → Text → Prop
  | name {text : Text} : IsName text → IsLexeme ident text
  | number {text : Text} : IsDigits text → IsLexeme int text
  | symbol {kind : TokenKind} {text : Text} : (text, kind) ∈ symbols → IsLexeme kind text

/-- A name ends where no letter or digit follows and a number where no digit follows;
    a symbol ends anywhere. -/
def EndsBefore (kind : TokenKind) (after : Text) : Prop :=
  match kind with
  | .ident => ∀ c, after.head? = some c → isNameCharacter c = false
  | .int => ∀ c, after.head? = some c → c.isDigit = false
  | _ => True

theorem ofSymbol?_eq_some_iff {text : Text} {kind : TokenKind} : ofSymbol? text = some kind ↔ (text, kind) ∈ symbols := by
  constructor
  · intro found
    obtain ⟨before, after, split, _⟩ := List.lookup_eq_some_iff.mp found
    rw [split]
    simp
  · intro member
    simp only [symbols, List.mem_cons, List.not_mem_nil, or_false, Prod.mk.injEq] at member
    rcases member with ⟨rfl, rfl⟩ | ⟨rfl, rfl⟩ | ⟨rfl, rfl⟩ | ⟨rfl, rfl⟩ | ⟨rfl, rfl⟩ | ⟨rfl, rfl⟩ <;> rfl

theorem mem_symbols_iff {text : Text} {kind : TokenKind} :
    (text, kind) ∈ symbols ↔ kind = assign ∧ text = [':', '='] ∨ kind.operatorSymbol? = some text := by
  simp only [symbols, List.mem_cons, List.not_mem_nil, or_false, Prod.mk.injEq]
  cases kind <;> simp [operatorSymbol?, eq_comm]

/-- A symbol of two characters begins with a colon, one of a single character does not. -/
theorem symbol_forms {text : Text} {kind : TokenKind} (member : (text, kind) ∈ symbols) :
    text = [':', '='] ∨ ∃ c, text = [c] ∧ c ≠ ':' := by
  simp only [symbols, List.mem_cons, List.not_mem_nil, or_false, Prod.mk.injEq] at member
  rcases member with ⟨rfl, -⟩ | ⟨rfl, -⟩ | ⟨rfl, -⟩ | ⟨rfl, -⟩ | ⟨rfl, -⟩ | ⟨rfl, -⟩
  · exact Or.inl rfl
  all_goals exact Or.inr ⟨_, rfl, by decide⟩

theorem symbol_start {c : Char} {rest : Text} {kind : TokenKind} (member : (c :: rest, kind) ∈ symbols) :
    c.isAlpha = false ∧ c.isDigit = false ∧ Text.isGap c = false := by
  simp only [symbols, List.mem_cons, List.not_mem_nil, or_false, Prod.mk.injEq, List.cons.injEq] at member
  rcases member with ⟨⟨rfl, -⟩, -⟩ | ⟨⟨rfl, -⟩, -⟩ | ⟨⟨rfl, -⟩, -⟩ | ⟨⟨rfl, -⟩, -⟩ | ⟨⟨rfl, -⟩, -⟩ | ⟨⟨rfl, -⟩, -⟩
  all_goals decide

theorem endsBefore_symbol {text after : Text} {kind : TokenKind} (member : (text, kind) ∈ symbols) :
    kind.EndsBefore after := by
  simp only [symbols, List.mem_cons, List.not_mem_nil, or_false, Prod.mk.injEq] at member
  rcases member with ⟨-, rfl⟩ | ⟨-, rfl⟩ | ⟨-, rfl⟩ | ⟨-, rfl⟩ | ⟨-, rfl⟩ | ⟨-, rfl⟩ <;> exact trivial

theorem IsLexeme.first {kind : TokenKind} {text : Text} (lexeme : kind.IsLexeme text) :
    ∃ c rest, text = c :: rest ∧ Text.isGap c = false := by
  have outside : ∀ (class_ : Char → Bool) (c : Char), class_ ' ' = false → class_ '\t' = false → class_ c = true →
      Text.isGap c = false := by
    intro class_ c space tab inside
    simp only [Text.isGap, Bool.or_eq_false_iff, decide_eq_false_iff_not]
    exact ⟨by rintro rfl; simp [space] at inside, by rintro rfl; simp [tab] at inside⟩
  cases text with
  | nil =>
    cases lexeme with
    | name written => exact written.elim
    | number written => exact absurd rfl written.1
    | symbol member => rcases symbol_forms member with empty | ⟨_, empty, _⟩ <;> cases empty
  | cons c rest =>
    refine ⟨c, rest, rfl, ?_⟩
    cases lexeme with
    | name written => exact outside Char.isAlpha c rfl rfl written.1
    | number written => exact outside Char.isDigit c rfl rfl (written.2 c (by simp))
    | symbol member => exact (symbol_start member).2.2

end TokenKind

/-! ## The token at the start of a text -/

namespace Munch

theorem split_at_boundary {class_ : Char → Bool} {front back : Text} (inside : ∀ c ∈ front, class_ c = true)
    (boundary : ∀ c, back.head? = some c → class_ c = false) :
    (front ++ back).takeWhile class_ = front ∧ (front ++ back).dropWhile class_ = back := by
  induction front with
  | nil => cases back <;> simp_all
  | cons c rest ih =>
    have first := inside c (by simp)
    have later := ih fun d member => inside d (by simp [member])
    simp [first, later]

theorem boundary_dropWhile (class_ : Char → Bool) (text : Text) :
    ∀ c, (text.dropWhile class_).head? = some c → class_ c = false := by
  intro c first
  have stopped := List.head?_dropWhile_not class_ text
  rw [first] at stopped
  simpa using stopped

theorem inside_takeWhile (class_ : Char → Bool) (text : Text) : ∀ c ∈ text.takeWhile class_, class_ c = true :=
  fun _ member => List.all_eq_true.mp List.all_takeWhile _ member

theorem pair?_eq_some_iff {c : Char} {rest : Text} {munch : Munch} :
    pair? c rest = some munch ↔ ∃ d, rest = d :: munch.after ∧ munch.lexeme = [c, d] ∧ (munch.lexeme, munch.kind) ∈ TokenKind.symbols := by
  cases rest with
  | nil => simp [pair?]
  | cons d after =>
    simp only [pair?, Option.map_eq_some_iff, TokenKind.ofSymbol?_eq_some_iff]
    constructor
    · rintro ⟨kind, member, rfl⟩
      exact ⟨d, rfl, rfl, member⟩
    · rintro ⟨e, same, lexeme, member⟩
      obtain ⟨rfl, rfl⟩ := List.cons.inj same
      exact ⟨munch.kind, lexeme ▸ member, by rw [← lexeme]⟩

theorem single?_eq_some_iff {c : Char} {rest : Text} {munch : Munch} :
    single? c rest = some munch ↔ rest = munch.after ∧ munch.lexeme = [c] ∧ (munch.lexeme, munch.kind) ∈ TokenKind.symbols := by
  simp only [single?, Option.map_eq_some_iff, TokenKind.ofSymbol?_eq_some_iff]
  constructor
  · rintro ⟨kind, member, rfl⟩
    exact ⟨rfl, rfl, member⟩
  · rintro ⟨rfl, lexeme, member⟩
    exact ⟨munch.kind, lexeme ▸ member, by rw [← lexeme]⟩

theorem symbol?_eq_some_iff {c : Char} {rest : Text} {munch : Munch} :
    symbol? c rest = some munch ↔
      munch.lexeme ++ munch.after = c :: rest ∧ (munch.lexeme, munch.kind) ∈ TokenKind.symbols := by
  simp only [symbol?, Option.or_eq_some_iff, pair?_eq_some_iff, single?_eq_some_iff]
  constructor
  · rintro (⟨d, rfl, lexeme, member⟩ | ⟨-, rfl, lexeme, member⟩) <;> exact ⟨by rw [lexeme]; rfl, member⟩
  · rintro ⟨whole, member⟩
    rcases TokenKind.symbol_forms member with colon | ⟨d, single, notColon⟩
    · rw [colon] at whole
      obtain ⟨rfl, rest'⟩ := List.cons.inj whole
      exact Or.inl ⟨'=', rest'.symm, colon, member⟩
    · rw [single] at whole
      obtain ⟨rfl, rest'⟩ := List.cons.inj whole
      refine Or.inr ⟨?_, rest'.symm, single, member⟩
      -- No pair begins with the character of a single symbol.
      rw [Option.eq_none_iff_forall_ne_some]
      intro other found
      obtain ⟨e, -, pair, otherMember⟩ := pair?_eq_some_iff.mp found
      rcases TokenKind.symbol_forms otherMember with colon | ⟨e', short, -⟩
      · exact notColon (List.cons.inj (pair.symm.trans colon)).1
      · simpa using congrArg List.length (pair.symm.trans short)

theorem ofText?_lexeme {kind : TokenKind} {c : Char} {more after : Text} (lexeme : kind.IsLexeme (c :: more))
    (ends : kind.EndsBefore after) : ofText? c (more ++ after) = some ⟨kind, c :: more, after⟩ := by
  unfold ofText?
  cases lexeme with
  | name written =>
    obtain ⟨inside, behind⟩ := split_at_boundary written.2 ends
    rw [if_pos written.1, inside, behind]
  | number written =>
    have digit := written.2 c (by simp)
    have noLetter : ¬ c.isAlpha = true := by
      rw [isAlpha_of_isDigit digit]
      exact Bool.false_ne_true
    obtain ⟨inside, behind⟩ := split_at_boundary (fun d member => written.2 d (List.mem_cons_of_mem c member)) ends
    rw [if_neg noLetter, if_pos digit, inside, behind]
  | symbol member =>
    obtain ⟨noLetter, noDigit, -⟩ := TokenKind.symbol_start member
    rw [noLetter, noDigit, if_neg Bool.false_ne_true, if_neg Bool.false_ne_true]
    exact symbol?_eq_some_iff.mpr ⟨rfl, member⟩

/-- The token at the start of a text is the lexeme that the text begins with and that cannot go on
    behind it. -/
theorem ofText?_eq_some_iff {c : Char} {rest : Text} {munch : Munch} :
    ofText? c rest = some munch ↔ munch.lexeme ++ munch.after = c :: rest ∧
      munch.kind.IsLexeme munch.lexeme ∧ munch.kind.EndsBefore munch.after := by
  constructor
  · intro found
    refine ⟨ofText?_append found, ?_⟩
    unfold ofText? at found
    split at found
    next letter =>
      cases found
      exact ⟨.name ⟨letter, inside_takeWhile _ _⟩, boundary_dropWhile _ _⟩
    next =>
      split at found
      next digit =>
        cases found
        refine ⟨.number ⟨by simp, ?_⟩, boundary_dropWhile _ _⟩
        intro d member
        rcases List.mem_cons.mp member with rfl | later
        · exact digit
        · exact inside_takeWhile _ _ d later
      next =>
        obtain ⟨-, member⟩ := symbol?_eq_some_iff.mp found
        exact ⟨.symbol member, TokenKind.endsBefore_symbol member⟩
  · rintro ⟨whole, lexeme, ends⟩
    obtain ⟨kind, text, after⟩ := munch
    obtain ⟨d, more, rfl, -⟩ := lexeme.first
    obtain ⟨rfl, rfl⟩ := List.cons.inj whole
    exact ofText?_lexeme lexeme ends

end Munch

/-! ## Scans of whole texts -/

namespace Scan

/-- The tokens of a text that begins after `position` characters of its line: spaces and
    tabs are passed over, and every other character belongs to a token that is as
    long as it can be. -/
inductive Reads : Nat → Text → List Token → Prop
  | finish {position : Nat} : Reads position [] []
  | gap {position : Nat} {c : Char} {rest : Text} {tokens : List Token} :
      Text.isGap c = true → Reads (position + 1) rest tokens → Reads position (c :: rest) tokens
  | token {position : Nat} {kind : TokenKind} {lexeme after : Text} {tokens : List Token} :
      kind.IsLexeme lexeme → kind.EndsBefore after → Reads (position + lexeme.length) after tokens →
      Reads position (lexeme ++ after) (⟨kind, lexeme, position + 1⟩ :: tokens)

variable {room : Option Nat} {position : Nat} {c : Char} {rest : Text}

theorem scanFrom_nil : scanFrom room position [] = ⟨[], position, none⟩ := by rw [scanFrom]

theorem scanFrom_full {text : Text} : scanFrom (some 0) position text = ⟨[], position, none⟩ := by
  cases text <;> simp [scanFrom]

theorem scanFrom_gap (left : room ≠ some 0) (blank : Text.isGap c = true) :
    scanFrom room position (c :: rest) = scanFrom room (position + 1) rest := by
  rw [scanFrom, if_neg left, if_pos blank]

theorem scanFrom_token (left : room ≠ some 0) (word : Text.isGap c = false) {munch : Munch}
    (found : Munch.ofText? c rest = some munch) :
    scanFrom room position (c :: rest) =
      (scanFrom (room.map (· - 1)) (position + munch.lexeme.length) munch.after).prepend
        ⟨munch.kind, munch.lexeme, position + 1⟩ := by
  rw [scanFrom, if_neg left, word, if_neg Bool.false_ne_true]
  split
  next other same => rw [Option.some.inj (same.symm.trans found)]
  next missing => exact absurd (missing.symm.trans found) (by simp)

theorem scanFrom_refused (left : room ≠ some 0) (word : Text.isGap c = false) (missing : Munch.ofText? c rest = none) :
    scanFrom room position (c :: rest) = ⟨[], position + 1, some c⟩ := by
  rw [scanFrom, if_neg left, word, if_neg Bool.false_ne_true]
  split
  next munch found => exact absurd (missing.symm.trans found) (by simp)
  next => rfl

theorem unlimited : (none : Option Nat) ≠ some 0 := nofun

/-- What holds where a text ends or its first character is refused, and passes from behind a gap or
    a token to the place in front of it, holds at every place. -/
@[elab_as_elim]
theorem along {holds : Nat → Text → Prop} (finish : ∀ position, holds position [])
    (gap : ∀ position c rest, Text.isGap c = true → holds (position + 1) rest → holds position (c :: rest))
    (refused : ∀ position c rest, Text.isGap c = false → Munch.ofText? c rest = none → holds position (c :: rest))
    (token : ∀ position c rest munch, Text.isGap c = false → Munch.ofText? c rest = some munch →
      holds (position + munch.lexeme.length) munch.after → holds position (c :: rest)) :
    ∀ position text, holds position text
  | position, [] => finish position
  | position, c :: rest => by
    cases word : Text.isGap c with
    | true => exact gap position c rest word (along finish gap refused token (position + 1) rest)
    | false =>
      cases found : Munch.ofText? c rest with
      | none => exact refused position c rest word found
      | some munch =>
        have shorter := Munch.after_length found
        exact token position c rest munch word found (along finish gap refused token _ munch.after)
termination_by _ text => text.length

/-- A scan that refuses nothing has read its text. -/
theorem reads_of_accepted (position : Nat) (text : Text) (accepted : (scanFrom none position text).refused = none) :
    Reads position text (scanFrom none position text).tokens := by
  induction position, text using along with
  | finish =>
    rw [scanFrom_nil]
    exact .finish
  | gap position c rest blank ih =>
    rw [scanFrom_gap unlimited blank] at accepted ⊢
    exact .gap blank (ih accepted)
  | refused position c rest word missing =>
    rw [scanFrom_refused unlimited word missing] at accepted
    cases accepted
  | token position c rest munch word found ih =>
    rw [scanFrom_token unlimited word found] at accepted ⊢
    obtain ⟨whole, lexeme, ends⟩ := Munch.ofText?_eq_some_iff.mp found
    rw [← whole]
    exact .token lexeme ends (ih accepted)

/-- A text that can be read is read to its end. -/
theorem scanFrom_of_reads {text : Text} {tokens : List Token} (reads : Reads position text tokens) :
    scanFrom none position text = ⟨tokens, position + text.length, none⟩ := by
  induction reads with
  | finish => rw [scanFrom_nil]; rfl
  | @gap position c rest tokens blank _ ih =>
    rw [scanFrom_gap unlimited blank, ih, List.length_cons]
    congr 1
    omega
  | @token position kind lexeme after tokens written ends _ ih =>
    obtain ⟨c, more, rfl, word⟩ := written.first
    have total : position + ((c :: more) ++ after).length = position + (c :: more).length + after.length := by
      rw [List.length_append, Nat.add_assoc]
    rw [total, List.cons_append, scanFrom_token unlimited word (Munch.ofText?_lexeme written ends), Option.map_none, ih]
    rfl

theorem scanFrom_of_length_le {count position : Nat} {text : Text}
    (fewer : (scanFrom none position text).tokens.length ≤ count) :
    scanFrom (some (count + 1)) position text = scanFrom none position text := by
  have left : some (count + 1) ≠ some 0 := by simp
  induction position, text using along generalizing count with
  | finish => rw [scanFrom_nil, scanFrom_nil]
  | gap position c rest blank ih =>
    rw [scanFrom_gap unlimited blank] at fewer ⊢
    rw [scanFrom_gap left blank, ih fewer left]
  | refused position c rest word missing =>
    rw [scanFrom_refused left word missing, scanFrom_refused unlimited word missing]
  | token position c rest munch word found ih =>
    rw [scanFrom_token unlimited word found] at fewer ⊢
    cases count with
    | zero => exact absurd fewer (Nat.not_succ_le_zero _)
    | succ count =>
      rw [scanFrom_token left word found, Option.map_some, Option.map_none, Nat.add_sub_cancel,
        ih (Nat.le_of_succ_le_succ fewer) (by simp)]

theorem scanFrom_of_getElem? {before position : Nat} {text : Text} {last : Token}
    (place : (scanFrom none position text).tokens[before]? = some last) :
    ∃ stop : Nat, scanFrom (some (before + 1)) position text = ⟨(scanFrom none position text).tokens.take (before + 1), stop, none⟩ ∧
      last.endColumn = stop + 1 := by
  have left : some (before + 1) ≠ some 0 := by simp
  induction position, text using along generalizing before with
  | finish =>
    rw [scanFrom_nil] at place
    cases place
  | gap position c rest blank ih =>
    rw [scanFrom_gap unlimited blank] at place ⊢
    rw [scanFrom_gap left blank]
    exact ih place left
  | refused position c rest word missing =>
    rw [scanFrom_refused unlimited word missing] at place
    cases place
  | token position c rest munch word found ih =>
    rw [scanFrom_token unlimited word found] at place ⊢
    rw [scanFrom_token left word found, Option.map_some, Option.map_none, Nat.add_sub_cancel]
    cases before with
    | zero =>
      cases place
      refine ⟨position + munch.lexeme.length, ?_, ?_⟩
      · rw [scanFrom_full]
        rfl
      · simp only [Token.endColumn]
        omega
    | succ before =>
      obtain ⟨stop, scanned, ends⟩ := ih place (by simp)
      exact ⟨stop, by rw [scanned]; rfl, ends⟩

/-- A scan with room for `count` tokens finds the first `count` of them, and refuses a character
    only while it has room left. -/
theorem limited (count position : Nat) (text : Text) :
    (scanFrom (some count) position text).tokens = (scanFrom none position text).tokens.take count ∧
      ∀ c, (scanFrom (some count) position text).refused = some c →
        (scanFrom none position text).refused = some c ∧
          (scanFrom none position text).stop = (scanFrom (some count) position text).stop ∧
          (scanFrom (some count) position text).tokens.length < count := by
  cases count with
  | zero => simp [scanFrom_full]
  | succ before =>
    cases place : (scanFrom none position text).tokens[before]? with
    | none =>
      have fewer := List.getElem?_eq_none_iff.mp place
      rw [scanFrom_of_length_le fewer, List.take_of_length_le (Nat.le_succ_of_le fewer)]
      exact ⟨rfl, fun c refused => ⟨refused, rfl, Nat.lt_succ_of_le fewer⟩⟩
    | some last =>
      obtain ⟨stop, scanned, -⟩ := scanFrom_of_getElem? place
      rw [scanned]
      exact ⟨rfl, nofun⟩

theorem opensAssignment_take (tokens : List Token) (column : Int) :
    opensAssignment (tokens.take 2 ++ [Token.atEnd column]) = opensAssignment tokens := by
  rcases tokens with _ | ⟨first, _ | ⟨second, rest⟩⟩
  · rfl
  · simp [opensAssignment, Token.atEnd]
  · rfl

theorem ofStatement_eq (line : Text) :
    ofStatement line =
      if opensAssignment (ofText none line).tokens then tokenize (some 2) line else tokenize none line := by
  obtain ⟨taken, refusal⟩ := limited 2 0 line
  cases refused : (ofText (some 2) line).refused with
  | some c =>
    obtain ⟨same, stop, -⟩ := refusal c refused
    have head : tokenize (some 2) line = .error (.invalidCharacter [c] (ofText (some 2) line).stop) := by
      rw [tokenize, result, refused]
    have all : tokenize none line = tokenize (some 2) line := by
      rw [head, tokenize, result]
      simp only [ofText, Option.map_none, Option.map_some] at same stop ⊢
      rw [same, stop]
      rfl
    rw [ofStatement, all, ite_self, head]
  | none =>
    have head : tokenize (some 2) line =
        .ok ((ofText none line).tokens.take 2 ++ [Token.atEnd ((ofText (some 2) line).stop + 1)]) := by
      rw [tokenize, result, refused]
      exact congrArg (fun tokens => Except.ok (tokens ++ _)) taken
    rw [ofStatement, head]
    simp only [opensAssignment_take]

end Scan
end LineCalc
