import LineCalc.Proofs.Chain
import LineCalc.Proofs.Stripping

/-!
Which lines are expressions, and of which trees. A line spells a tree if the lexemes of the tree
stand in it in order, with spaces and tabs anywhere between them (`Spells`).
-/
namespace LineCalc
open Numeral Scan

def Operand.lexeme : Operand → Text
  | literal digits => digits
  | reference name => name
  | unsupported => []

/-- The characters of an operator. -/
def TokenKind.sign (kind : TokenKind) : Text := kind.operatorSymbol?.getD []

/-- The operands and operators of a tree from left to right. -/
def Expr.lexemes : Expr → List Text
  | leaf operand => [operand.lexeme]
  | binary operator left right => left.lexemes ++ operator.sign :: right.lexemes

/-- Spaces and tabs, or nothing. -/
def IsGap (text : Text) : Prop := ∀ c ∈ text, c = ' ' ∨ c = '\t'

/-- A text that holds the lexemes in order, with a gap before, between and after them. -/
inductive Spells : List Text → Text → Prop
  | nil {gap : Text} : IsGap gap → Spells [] gap
  | cons {gap lexeme rest : Text} {lexemes : List Text} :
      IsGap gap → Spells lexemes rest → Spells (lexeme :: lexemes) (gap ++ lexeme ++ rest)

theorem isGap_iff {c : Char} : Text.isGap c = true ↔ c = ' ' ∨ c = '\t' := by simp [Text.isGap]

theorem isGap_cons {c : Char} {gap : Text} : IsGap (c :: gap) ↔ (c = ' ' ∨ c = '\t') ∧ IsGap gap := by simp [IsGap]

namespace Spells

theorem nil_iff {text : Text} : Spells [] text ↔ IsGap text :=
  ⟨fun spelled => by cases spelled; assumption, .nil⟩

theorem cons_iff {lexeme text : Text} {lexemes : List Text} :
    Spells (lexeme :: lexemes) text ↔ ∃ gap rest, text = gap ++ lexeme ++ rest ∧ IsGap gap ∧ Spells lexemes rest := by
  constructor
  · rintro (_ | ⟨isGap, spelled⟩)
    exact ⟨_, _, rfl, isGap, spelled⟩
  · rintro ⟨gap, rest, rfl, isGap, spelled⟩
    exact .cons isGap spelled

theorem gap_cons {lexemes : List Text} {c : Char} {rest : Text} (blank : Text.isGap c = true)
    (spelled : Spells lexemes rest) : Spells lexemes (c :: rest) := by
  have first := isGap_iff.mp blank
  cases spelled with
  | nil gap => exact .nil (isGap_cons.mpr ⟨first, gap⟩)
  | @cons gap lexeme rest lexemes isGap spelled => exact .cons (isGap_cons.mpr ⟨first, isGap⟩) spelled

end Spells

/-! ## Tokens and what they spell -/

namespace Scan

theorem Reads.isLexeme {position : Nat} {text : Text} {tokens : List Token} (reads : Reads position text tokens) :
    ∀ token ∈ tokens, token.kind.IsLexeme token.lexeme := by
  induction reads with
  | finish => simp
  | gap _ _ ih => exact ih
  | token lexeme _ _ ih =>
    intro token member
    rcases List.mem_cons.mp member with rfl | later
    · exact lexeme
    · exact ih token later

theorem Reads.spells {position : Nat} {text : Text} {tokens : List Token} (reads : Reads position text tokens) :
    Spells (tokens.map Token.lexeme) text := by
  induction reads with
  | finish => exact .nil (by simp [IsGap])
  | gap blank _ ih => exact ih.gap_cons blank
  | @token _ _ lexeme after _ _ _ _ ih => exact @Spells.cons [] lexeme after _ (by simp [IsGap]) ih

theorem Reads.gap_append {gap rest : Text} {tokens : List Token} (isGap : IsGap gap) {position : Nat}
    (reads : Reads (position + gap.length) rest tokens) : Reads position (gap ++ rest) tokens := by
  induction gap generalizing position with
  | nil => exact reads
  | cons c gap ih =>
    obtain ⟨first, later⟩ := isGap_cons.mp isGap
    refine .gap (isGap_iff.mpr first) (ih later ?_)
    rw [Nat.add_assoc, Nat.add_comm 1]
    exact reads

theorem tokenize_of_ofStatement {line : Text} {tokens : List Token} (found : ofStatement line = .ok tokens)
    (closed : opensAssignment tokens = false) : tokenize none line = .ok tokens := by
  unfold ofStatement at found
  split at found
  next => cases found
  next head _ =>
    split at found
    next opens =>
      cases found
      exact absurd opens (by simp [closed])
    next => exact found

theorem tokenize_eq_ok {line : Text} {tokens : List Token} (found : tokenize none line = .ok tokens) :
    Reads 0 line (ofText none line).tokens ∧ ∃ column, tokens = (ofText none line).tokens ++ [Token.atEnd column] := by
  rw [tokenize, result] at found
  split at found
  next => cases found
  next accepted =>
    cases found
    exact ⟨reads_of_accepted 0 line accepted, _, rfl⟩

end Scan

theorem TokenKind.IsLexeme.ne_eof {kind : TokenKind} {text : Text} (lexeme : kind.IsLexeme text) : kind ≠ .eof := by
  rintro rfl
  cases lexeme with
  | symbol member => rcases mem_symbols_iff.mp member with ⟨⟨⟩, -⟩ | ⟨⟨⟩⟩

theorem TokenKind.IsLexeme.sign {kind : TokenKind} {text : Text} (lexeme : kind.IsLexeme text)
    (operator : Expr.isOperator kind = true) : kind.sign = text := by
  cases lexeme with
  | name | number => exact absurd operator (by decide)
  | symbol member =>
    rcases mem_symbols_iff.mp member with ⟨rfl, -⟩ | written
    · exact absurd operator (by decide)
    · rw [TokenKind.sign, written]
      rfl

theorem TokenKind.isLexeme_sign {kind : TokenKind} (operator : Expr.isOperator kind = true) :
    (kind.sign, kind) ∈ symbols := by
  rw [mem_symbols_iff]
  cases kind <;> first | exact Or.inr rfl | exact absurd operator (by decide)

theorem Operand.proper_of_token {token : Token} (lexeme : token.kind.IsLexeme token.lexeme) {operand : Operand}
    (isOperand : Operand.ofToken? token = some operand) : operand.IsProper ∧ operand.lexeme = token.lexeme := by
  obtain ⟨kind, text, column⟩ := token
  rcases ofToken?_eq_some_iff.mp isOperand with ⟨rfl, rfl⟩ | ⟨rfl, rfl⟩
  · cases lexeme with
    | number written => exact ⟨written, rfl⟩
    | symbol member => rcases TokenKind.mem_symbols_iff.mp member with ⟨⟨⟩, -⟩ | ⟨⟨⟩⟩
  · cases lexeme with
    | name written => exact ⟨written, rfl⟩
    | symbol member => rcases TokenKind.mem_symbols_iff.mp member with ⟨⟨⟩, -⟩ | ⟨⟨⟩⟩

/-- A proper operand is a token wherever no letter and no digit follows. -/
theorem Operand.IsProper.token {operand : Operand} (proper : operand.IsProper) {after : Text}
    (ends : ∀ c, after.head? = some c → isNameCharacter c = false) :
    ∃ kind : TokenKind, kind.IsLexeme operand.lexeme ∧ kind.EndsBefore after ∧
      ∀ column, ofToken? ⟨kind, operand.lexeme, column⟩ = some operand := by
  cases operand with
  | literal digits =>
    refine ⟨.int, .number proper, fun c first => ?_, fun _ => rfl⟩
    exact (Bool.or_eq_false_iff.mp (ends c first)).2
  | reference name => exact ⟨.ident, .name proper, ends, fun _ => rfl⟩
  | unsupported => exact proper.elim

namespace Expr

def Link.lexemes (link : Link) : List Text := [link.operator.sign, link.operand.lexeme]

theorem lexemes_eq (tree : Expr) : tree.lexemes = tree.first.lexeme :: tree.links.flatMap Link.lexemes := by
  induction tree with
  | leaf => rfl
  | binary operator left right ihl ihr => simp [lexemes, links, first, Link.lexemes, ihl, ihr]

theorem Written.lexemes {tokens : List Token} {links : List Link} (written : Written tokens links)
    (isLexeme : ∀ token ∈ tokens, token.kind.IsLexeme token.lexeme) :
    tokens.map Token.lexeme = links.flatMap Link.lexemes ∧ ∀ link ∈ links, link.IsProper := by
  induction written with
  | nil => simp
  | @cons sign word operand tokens links operator isOperand _ ih =>
    obtain ⟨rest, properRest⟩ := ih fun token member => isLexeme token (by simp [member])
    obtain ⟨proper, same⟩ := Operand.proper_of_token (isLexeme word (by simp)) isOperand
    have written := (isLexeme sign (by simp)).sign operator
    refine ⟨by simp [Link.lexemes, rest, same, written], fun link member => ?_⟩
    rcases List.mem_cons.mp member with rfl | later
    · exact ⟨operator, proper⟩
    · exact properRest link later

theorem ends_of_spells {links : List Link} (proper : ∀ link ∈ links, link.IsProper) {text : Text}
    (spelled : Spells (links.flatMap Link.lexemes) text) :
    ∀ c, text.head? = some c → isNameCharacter c = false := by
  have blank : ∀ c, c = ' ' ∨ c = '\t' → isNameCharacter c = false := by rintro c (rfl | rfl) <;> decide
  intro c first
  cases links with
  | nil => exact blank c (Spells.nil_iff.mp spelled c (List.mem_of_mem_head? first))
  | cons link rest =>
    obtain ⟨gap, behind, rfl, isGap, -⟩ := Spells.cons_iff.mp spelled
    cases gap with
    | cons d gap =>
      have same : d = c := by simpa using first
      exact blank c (same ▸ (isGap_cons.mp isGap).1)
    | nil =>
      have member := TokenKind.isLexeme_sign (proper link (by simp)).1
      obtain ⟨d, more, written, -⟩ := (TokenKind.IsLexeme.symbol member).first
      rw [written] at first member
      obtain ⟨noLetter, noDigit, -⟩ := TokenKind.symbol_start member
      have same : d = c := by simpa using first
      rw [← same, isNameCharacter, noLetter, noDigit]
      rfl

/-- A text that spells links is read as tokens of the links. -/
theorem exists_written {links : List Link} (proper : ∀ link ∈ links, link.IsProper) {text : Text}
    (spelled : Spells (links.flatMap Link.lexemes) text) (position : Nat) :
    ∃ tokens, Reads position text tokens ∧ Written tokens links := by
  induction links generalizing text position with
  | nil =>
    have reads : Reads position (text ++ []) [] := Reads.gap_append (Spells.nil_iff.mp spelled) .finish
    exact ⟨[], by simpa using reads, .nil⟩
  | cons link rest ih =>
    obtain ⟨sign, operand⟩ := link
    obtain ⟨operator, properOperand⟩ := proper ⟨sign, operand⟩ (by simp)
    have properRest : ∀ other ∈ rest, other.IsProper := fun other member => proper other (by simp [member])
    obtain ⟨gap, behindGap, rfl, isGap, afterSign⟩ := Spells.cons_iff.mp spelled
    obtain ⟨inner, behind, rfl, isInner, afterOperand⟩ := Spells.cons_iff.mp afterSign
    obtain ⟨kind, lexeme, ends, isOperand⟩ := properOperand.token (ends_of_spells properRest afterOperand)
    have member := TokenKind.isLexeme_sign operator
    -- The tokens are put together from the end of the text to its start.
    obtain ⟨tokens, reads, written⟩ := ih properRest afterOperand
      (position + gap.length + sign.sign.length + inner.length + operand.lexeme.length)
    have fromOperand := (Reads.token lexeme ends reads).gap_append isInner
    have fromSign := (Reads.token (.symbol member) (TokenKind.endsBefore_symbol member) fromOperand).gap_append isGap
    refine ⟨_, by simpa only [List.append_assoc] using fromSign, ?_⟩
    exact .cons operator (isOperand _) written

end Expr

/-! ## Lines that are no comments -/

theorem Text.isBlank_eq_false {c : Char} (low : 33 ≤ c.toNat) (high : c.toNat ≤ 126) : isBlank c = false := by
  simp only [isBlank, blankRuns, List.any_cons, List.any_nil, Bool.or_eq_false_iff, Bool.and_eq_false_iff,
    decide_eq_false_iff_not, and_true]
  omega

theorem Operand.IsProper.first {operand : Operand} (proper : operand.IsProper) :
    ∃ c rest, operand.lexeme = c :: rest ∧ 48 ≤ c.toNat ∧ c.toNat ≤ 122 := by
  cases operand with
  | literal digits =>
    obtain ⟨nonempty, all⟩ := proper
    obtain ⟨c, rest, rfl⟩ := List.exists_cons_of_ne_nil nonempty
    obtain ⟨low, high⟩ := digit_bounds (all c (by simp))
    exact ⟨c, rest, rfl, low, by omega⟩
  | reference name =>
    cases name with
    | nil => exact proper.elim
    | cons c rest =>
      obtain ⟨low, high⟩ := letter_bounds proper.1
      exact ⟨c, rest, rfl, by omega, high⟩
  | unsupported => exact proper.elim

namespace Statement

/-- A line is no comment if its first character behind a gap is printing and no number sign. -/
theorem isComment_of_character {gap rest : Text} {c : Char} (isGap : IsGap gap) (low : 36 ≤ c.toNat) (high : c.toNat ≤ 126) :
    isComment (gap ++ c :: rest) = false := by
  have inside : c ∈ gap ++ c :: rest := by simp
  have kept := Text.mem_strip inside (Text.isBlank_eq_false (by omega) high)
  have noHash : (gap ++ c :: rest).head? ≠ some '#' := by
    cases gap with
    | nil =>
      rintro ⟨⟩
      exact absurd low (by decide)
    | cons d gap =>
      rcases (isGap_cons.mp isGap).1 with rfl | rfl <;> simp
  rw [isComment, Bool.or_eq_false_iff]
  exact ⟨List.isEmpty_eq_false_iff.mpr (List.ne_nil_of_mem kept), by simpa using noHash⟩

theorem isComment_eq_false {operand : Operand} (proper : operand.IsProper) {gap rest : Text} (isGap : IsGap gap) :
    isComment (gap ++ operand.lexeme ++ rest) = false := by
  obtain ⟨c, more, written, low, high⟩ := proper.first
  rw [written, List.append_assoc]
  exact isComment_of_character isGap (by omega) (by omega)

/-! ## Lines that are expressions -/

theorem tokens_of_expression {line : Text} {tree : Expr} (accepted : ofLine line = .ok (.expression tree)) :
    Reads 0 line (ofText none line).tokens ∧
      ∃ first operand rest links, (ofText none line).tokens = first :: rest ∧ Operand.ofToken? first = some operand ∧
        Expr.Written rest links ∧ tree = Expr.ofChain operand links := by
  rw [ofLine] at accepted
  split at accepted
  next => cases accepted
  next =>
    split at accepted
    next => cases accepted
    next tokens found =>
      obtain ⟨first, operand, front, links, last, rest, whole, isOperand, written, ends, built⟩ :=
        ofTokens_eq_expression_iff.mp accepted
      have closed : opensAssignment tokens = false := by
        rw [whole]
        refine written.not_opensAssignment ?_
        rintro other ⟨⟩
        simp [ends]
      obtain ⟨reads, column, all⟩ := tokenize_eq_ok (tokenize_of_ofStatement found closed)
      refine ⟨reads, first, operand, front, links, ?_, isOperand, written, built⟩
      -- The end that stops the chain is the end of the line, as no other token is an end.
      have isLexeme := reads.isLexeme
      rw [all, ← List.cons_append] at whole
      rcases List.append_eq_append_iff.mp whole with ⟨behind, inside, left⟩ | ⟨behind, inside, left⟩
      · cases behind with
        | nil => simpa using inside.symm
        | cons => simp at left
      · cases behind with
        | nil => simpa using inside
        | cons other behind =>
          obtain ⟨rfl, -⟩ := List.cons.inj left
          exact absurd ends (isLexeme last (by simp [inside])).ne_eof

/-- A line that is read as an expression spells its tree, and that is canonical. -/
theorem canonical_of_expression {line : Text} {tree : Expr} (accepted : ofLine line = .ok (.expression tree)) :
    tree.Canonical ∧ Spells tree.lexemes line := by
  obtain ⟨reads, first, operand, rest, links, tokens, isOperand, written, rfl⟩ := tokens_of_expression accepted
  have isLexeme := reads.isLexeme
  have spelled := reads.spells
  rw [tokens] at isLexeme spelled
  obtain ⟨proper, same⟩ := Operand.proper_of_token (isLexeme first (by simp)) isOperand
  obtain ⟨lexemes, properLinks⟩ := written.lexemes fun token member => isLexeme token (by simp [member])
  obtain ⟨sameFirst, sameLinks⟩ := Expr.chain_ofChain operand links
  refine ⟨Expr.canonical_ofChain proper properLinks, ?_⟩
  rw [Expr.lexemes_eq, sameFirst, sameLinks, same, ← lexemes]
  exact spelled

/-- A line that spells a canonical tree is read as that tree. -/
theorem expression_of_spells {line : Text} {tree : Expr} (canonical : tree.Canonical) (spelled : Spells tree.lexemes line) :
    ofLine line = .ok (.expression tree) := by
  obtain ⟨proper, properLinks⟩ := canonical.chain
  rw [Expr.lexemes_eq] at spelled
  obtain ⟨gap, behind, rfl, isGap, afterOperand⟩ := Spells.cons_iff.mp spelled
  obtain ⟨kind, lexeme, ends, isOperand⟩ := proper.token (Expr.ends_of_spells properLinks afterOperand)
  obtain ⟨tokens, reads, written⟩ := Expr.exists_written properLinks afterOperand (0 + gap.length + tree.first.lexeme.length)
  have whole := (Reads.token lexeme ends reads).gap_append isGap
  rw [← List.append_assoc] at whole
  have scanned := scanFrom_of_reads whole
  have closed : opensAssignment (ofText none (gap ++ tree.first.lexeme ++ behind)).tokens = false := by
    rw [ofText, Option.map_none, scanned, ← List.append_nil tokens]
    exact written.not_opensAssignment (by rintro _ ⟨⟩)
  rw [ofLine, isComment_eq_false proper isGap, if_neg Bool.false_ne_true, ofStatement_eq, closed,
    if_neg Bool.false_ne_true, tokenize, ofText, Option.map_none, scanned]
  refine ofTokens_eq_expression_iff.mpr ⟨_, _, tokens, tree.links, _, [], rfl, isOperand _, written, rfl, ?_⟩
  exact (Expr.ofChain_links canonical).symm

/-- A line is read as an expression exactly when it spells the lexemes of a canonical tree,
    and it is read as that tree. -/
theorem ofLine_eq_expression_iff (line : Text) (tree : Expr) :
    ofLine line = .ok (.expression tree) ↔ tree.Canonical ∧ Spells tree.lexemes line := by
  constructor
  · exact canonical_of_expression
  · rintro ⟨canonical, spelled⟩
    exact expression_of_spells canonical spelled

end Statement
end LineCalc
