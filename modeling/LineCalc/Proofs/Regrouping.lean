import LineCalc.Proofs.Classification
import LineCalc.Proofs.Continuation
import LineCalc.Proofs.Rendering
import LineCalc.Proofs.Substitution

/-!
The text of an expression beside its line. Both have the same lexemes in the same order, and what
else is in them is told apart from these: spaces and tabs in the line (`Spells.ungapped`), spaces
and one pair of parentheses for each operator in the text (`Expr.IsProper.ungrouped`,
`Expr.IsProper.count_grouped`).
-/
namespace LineCalc
open Scan

/-- The characters that arithmetic operators are written with. -/
def signs : List Char := ['+', '-', '*', '/', '%']

namespace Text

/-- A text without its parentheses and spaces. -/
def ungrouped (text : Text) : Text := text.filter (· ∉ ['(', ')', ' '])

/-- A line without its spaces and tabs. -/
def ungapped (line : Text) : Text := line.filter (· ∉ [' ', '\t'])

/-- The text has the characters of the line but for spaces, tabs and parentheses, and of these a
    pair for each operator in the line. -/
structure Regroups (line text : Text) : Prop where
  characters : text.ungrouped = line.ungapped
  opening : text.count '(' = line.countP (· ∈ signs)
  closing : text.count ')' = line.countP (· ∈ signs)

end Text

/-- The answer shows the text, and tokens that have the characters of its line and as many
    operators. -/
structure Service.LineAnswer.Shows (answer : LineAnswer) (text : Text) : Prop where
  expression : answer.expression = some text
  lexemes : answer.tokens.flatMap Token.lexeme = answer.line.ungapped
  operators : answer.tokens.countP (Expr.isOperator ·.kind) = answer.line.countP (· ∈ signs)

/-! ## Characters of lexemes -/

theorem not_mem_of_isNameCharacter {marks : List Char} (apart : marks.any isNameCharacter = false) {c : Char}
    (inName : isNameCharacter c = true) : c ∉ marks :=
  fun member => List.any_eq_false.mp apart c member inName

theorem signs_apart {c : Char} (isSign : c ∈ signs) : c ≠ '(' ∧ c ≠ ')' ∧ c ≠ ' ' ∧ c ≠ '\t' := by
  simp only [signs, List.mem_cons, List.not_mem_nil, or_false] at isSign
  rcases isSign with rfl | rfl | rfl | rfl | rfl <;> decide

theorem Text.ungrouped_append (front back : Text) : (front ++ back).ungrouped = front.ungrouped ++ back.ungrouped :=
  List.filter_append ..

theorem Text.ungapped_append (front back : Text) : (front ++ back).ungapped = front.ungapped ++ back.ungapped :=
  List.filter_append ..

theorem TokenKind.exists_sign {kind : TokenKind} (operator : Expr.isOperator kind = true) :
    ∃ c ∈ signs, kind.sign = [c] := by
  cases kind <;> first | exact ⟨_, by decide, rfl⟩ | exact absurd operator (by decide)

namespace Expr.IsProper

variable {tree : Expr}

theorem characters (proper : tree.IsProper) :
    ∀ lexeme ∈ tree.lexemes, ∀ c ∈ lexeme, isNameCharacter c = true ∨ c ∈ signs := by
  induction tree with
  | leaf operand =>
    intro lexeme member c inside
    rw [List.mem_singleton.mp member] at inside
    exact Or.inl (Operand.IsProper.characters proper c inside)
  | binary operator left right ihl ihr =>
    obtain ⟨arithmetic, properLeft, properRight⟩ := proper
    intro lexeme member
    rcases List.mem_append.mp member with inLeft | later
    · exact ihl properLeft lexeme inLeft
    · rcases List.mem_cons.mp later with rfl | inRight
      · obtain ⟨sign, isSign, written⟩ := TokenKind.exists_sign arithmetic
        intro c inside
        rw [written, List.mem_singleton] at inside
        exact Or.inr (inside ▸ isSign)
      · exact ihr properRight lexeme inRight

theorem ungrouped (proper : tree.IsProper) : tree.grouped.ungrouped = tree.lexemes.flatten := by
  induction tree with
  | leaf operand =>
    have kept : operand.lexeme.ungrouped = operand.lexeme := by
      refine List.filter_eq_self.mpr fun c member => decide_eq_true ?_
      exact not_mem_of_isNameCharacter (by decide) (Operand.IsProper.characters proper c member)
    simp [grouped, lexemes, kept]
  | binary operator left right ihl ihr =>
    obtain ⟨arithmetic, properLeft, properRight⟩ := proper
    obtain ⟨sign, isSign, written⟩ := TokenKind.exists_sign arithmetic
    have kept : Text.ungrouped [sign] = [sign] := by simp [Text.ungrouped, signs_apart isSign]
    have gone : Text.ungrouped ['('] = [] ∧ Text.ungrouped [' '] = [] ∧ Text.ungrouped [')'] = [] := by decide
    have pieces : (binary operator left right).grouped =
        ['('] ++ (left.grouped ++ ([' '] ++ ([sign] ++ ([' '] ++ (right.grouped ++ [')']))))) := by
      simp [grouped, written]
    simp only [pieces, Text.ungrouped_append, gone, kept, ihl properLeft, ihr properRight, lexemes, written,
      List.flatten_append, List.flatten_cons, List.nil_append, List.append_nil]

/-- A pair of parentheses stands around each operation. -/
theorem count_grouped (proper : tree.IsProper) {bracket : Char} (isBracket : bracket = '(' ∨ bracket = ')') :
    tree.grouped.count bracket = tree.links.length := by
  have noName : isNameCharacter bracket = false := by rcases isBracket with rfl | rfl <;> decide
  induction tree with
  | leaf operand =>
    refine List.count_eq_zero_of_not_mem fun member => ?_
    have inName := Operand.IsProper.characters proper bracket member
    rw [noName] at inName
    exact absurd inName Bool.false_ne_true
  | binary operator left right ihl ihr =>
    obtain ⟨arithmetic, properLeft, properRight⟩ := proper
    obtain ⟨sign, isSign, written⟩ := TokenKind.exists_sign arithmetic
    have before := ihl properLeft
    have behind := ihr properRight
    rcases isBracket with rfl | rfl <;> simp [grouped, links, written, signs_apart isSign, before, behind, Nat.add_assoc]

theorem countP_lexemes (proper : tree.IsProper) : tree.lexemes.flatten.countP (· ∈ signs) = tree.links.length := by
  induction tree with
  | leaf operand =>
    refine List.countP_eq_zero.mpr fun c member => ?_
    rw [lexemes, List.flatten_singleton] at member
    simpa using not_mem_of_isNameCharacter (by decide) (Operand.IsProper.characters proper c member)
  | binary operator left right ihl ihr =>
    obtain ⟨arithmetic, properLeft, properRight⟩ := proper
    obtain ⟨sign, isSign, written⟩ := TokenKind.exists_sign arithmetic
    simp [lexemes, links, written, isSign, ihl properLeft, ihr properRight]

end Expr.IsProper

/-! ## The line -/

theorem Spells.ungapped {lexemes : List Text} {line : Text} (spelled : Spells lexemes line)
    (solid : ∀ lexeme ∈ lexemes, ∀ c ∈ lexeme, c ∉ [' ', '\t']) : line.ungapped = lexemes.flatten := by
  have gone : ∀ {gap : Text}, IsGap gap → gap.ungapped = [] := by
    intro gap isGap
    refine List.filter_eq_nil_iff.mpr fun c member => ?_
    rcases isGap c member with rfl | rfl <;> decide
  induction spelled with
  | nil isGap => exact gone isGap
  | @cons gap lexeme rest lexemes isGap _ ih =>
    have kept : lexeme.ungapped = lexeme :=
      List.filter_eq_self.mpr fun c member => decide_eq_true (solid lexeme List.mem_cons_self c member)
    have behind := ih fun other member => solid other (List.mem_cons_of_mem _ member)
    rw [Text.ungapped_append, Text.ungapped_append, gone isGap, kept, behind, List.nil_append, List.flatten_cons]

theorem Text.countP_ungapped (line : Text) : line.ungapped.countP (· ∈ signs) = line.countP (· ∈ signs) := by
  rw [ungapped, List.countP_filter]
  refine List.countP_congr fun c _ => ?_
  simpa using fun isSign => (signs_apart isSign).2.2

theorem Operand.not_isOperator_of_token {token : Token} {operand : Operand} (isOperand : ofToken? token = some operand) :
    Expr.isOperator token.kind = false := by
  rcases fits_of_token isOperand with kind | kind <;> rw [kind] <;> rfl

theorem Expr.Written.countP_isOperator {tokens : List Token} {links : List Link} (written : Written tokens links) :
    tokens.countP (isOperator ·.kind) = links.length := by
  induction written with
  | nil => rfl
  | cons operator isOperand _ ih => simp [operator, Operand.not_isOperator_of_token isOperand, ih]

namespace Statement

section
variable {line : Text} {tree : Expr} (accepted : ofLine line = .ok (.expression tree))
include accepted

theorem lexemes_of_expression :
    (Scan.ofText none line).tokens.map Token.lexeme = tree.lexemes ∧
      (Scan.ofText none line).tokens.countP (Expr.isOperator ·.kind) = tree.links.length := by
  obtain ⟨reads, first, operand, rest, links, tokens, isOperand, written, rfl⟩ := tokens_of_expression accepted
  have isLexeme := reads.isLexeme
  rw [tokens] at isLexeme ⊢
  obtain ⟨-, same⟩ := Operand.proper_of_token (isLexeme first (by simp)) isOperand
  obtain ⟨lexemes, -⟩ := written.lexemes fun token member => isLexeme token (by simp [member])
  obtain ⟨sameFirst, sameLinks⟩ := Expr.chain_ofChain operand links
  rw [Expr.lexemes_eq, sameFirst, sameLinks, same]
  exact ⟨by rw [List.map_cons, lexemes], by simp [Operand.not_isOperator_of_token isOperand, written.countP_isOperator]⟩

theorem ungapped_of_expression : line.ungapped = tree.lexemes.flatten := by
  obtain ⟨canonical, spelled⟩ := canonical_of_expression accepted
  refine spelled.ungapped fun lexeme member c inside => ?_
  rcases canonical.isProper.characters lexeme member c inside with inName | isSign
  · exact not_mem_of_isNameCharacter (by decide) inName
  · simp [signs_apart isSign]

theorem countP_of_expression : line.countP (· ∈ signs) = tree.links.length := by
  rw [← Text.countP_ungapped, ungapped_of_expression accepted]
  exact (canonical_of_expression accepted).1.isProper.countP_lexemes

theorem regroups_of_expression : line.Regroups tree.grouped := by
  have proper := (canonical_of_expression accepted).1.isProper
  have operators := countP_of_expression accepted
  refine ⟨?_, ?_, ?_⟩
  · rw [proper.ungrouped, ungapped_of_expression accepted]
  · rw [proper.count_grouped (Or.inl rfl), operators]
  · rw [proper.count_grouped (Or.inr rfl), operators]

theorem parseLine_expression (number : Nat) :
    ∃ answer, Service.parseLine number line = .ok answer ∧ answer.lineNumber = number ∧ answer.line = line ∧
      answer.Shows tree.grouped := by
  have rendered := (canonical_of_expression accepted).1.isProper.render
  have reads := (tokens_of_expression accepted).1
  obtain ⟨lexemes, operators⟩ := lexemes_of_expression accepted
  obtain ⟨wordy, column, scanned⟩ := ofStatement_of_expression accepted
  have read := (ofLine_of_ofStatement wordy scanned).symm.trans accepted
  have shown : ((Scan.ofText none line).tokens ++ [Token.atEnd column]).filter (fun token => token.kind ≠ .eof) =
      (Scan.ofText none line).tokens := by
    have words : (Scan.ofText none line).tokens.filter (fun token => token.kind ≠ .eof) = (Scan.ofText none line).tokens :=
      List.filter_eq_self.mpr fun token member => decide_eq_true (reads.isLexeme token member).ne_eof
    rw [List.filter_append, words]
    exact List.append_nil _
  rw [Service.parseLine, wordy, if_neg Bool.false_ne_true, Service.parseStatement, scanned]
  simp only [read, Service.renderStatement, rendered, shown]
  refine ⟨_, rfl, rfl, rfl, rfl, ?_, ?_⟩
  · rw [ungapped_of_expression accepted, ← lexemes, List.flatMap]
  · rw [operators, countP_of_expression accepted]

end

/-- The text of an expression is its line up to grouping, and wherever the line stands in a source,
    the answer on it shows this text and tokens that are the line without gaps. -/
theorem expression_regroups {line : Text} {tree : Expr} (accepted : ofLine line = .ok (.expression tree)) :
    ∃ text, tree.render = .ok text ∧ line.Regroups text ∧
      ∀ source, ∃ answers, Service.parse ⟨source⟩ = .ok answers ∧
        answers.map (fun answer => (answer.lineNumber, answer.line)) = Lines.numbered (Lines.ofText source) ∧
        ∀ answer ∈ answers, answer.line = line → answer.Shows text := by
  have rendered := (canonical_of_expression accepted).1.isProper.render
  refine ⟨_, rendered, regroups_of_expression accepted, fun source => ?_⟩
  refine Service.parseLines_forall fun ⟨number, other⟩ _ => ?_
  by_cases same : other = line
  · obtain ⟨answer, parsed, sameNumber, sameLine, shows⟩ := parseLine_expression accepted number
    exact ⟨answer, by rw [same]; exact parsed, sameNumber, sameLine.trans same.symm, fun _ => shows⟩
  · obtain ⟨outcome, yields⟩ := exists_yields .empty other
    obtain ⟨answer, parsed, sameNumber, sameLine, -⟩ := Service.parseLine_agrees yields number
    exact ⟨answer, parsed, sameNumber, sameLine, fun again => absurd (sameLine.symm.trans again) same⟩

theorem expression_regroups_quotient :
    ∃ tree, ofLine "2*x\t- 3/y ".toList = .ok (.expression tree) ∧
      tree.render = .ok "((2 * x) - (3 / y))".toList ∧
      Text.Regroups "2*x\t- 3/y ".toList "((2 * x) - (3 / y))".toList ∧
      ∃ answers, Service.parse ⟨"x := 4\r2*x\t- 3/y ".toList⟩ = .ok answers ∧
        answers.map (fun answer => (answer.lineNumber, answer.line)) = [(1, "x := 4".toList), (2, "2*x\t- 3/y ".toList)] ∧
        ∀ answer ∈ answers, answer.line = "2*x\t- 3/y ".toList → answer.Shows "((2 * x) - (3 / y))".toList := by
  have accepted : ofLine "2*x\t- 3/y ".toList =
      .ok (.expression (.binary .minus
        (.binary .star (.leaf (.literal ['2'])) (.leaf (.reference ['x'])))
        (.binary .slash (.leaf (.literal ['3'])) (.leaf (.reference ['y']))))) := by decide +kernel
  have written := (canonical_of_expression accepted).1.isProper.render
  obtain ⟨text, rendered, regroups, answered⟩ := expression_regroups accepted
  cases written.symm.trans rendered
  exact ⟨_, accepted, rendered, regroups, answered _⟩

end Statement
end LineCalc
