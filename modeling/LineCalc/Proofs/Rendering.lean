import LineCalc.Proofs.Legibility

/-!
Texts that settle their trees. The text of a tree has its lexemes in their order, with a pair of
parentheses and two spaces for each operation (`Expr.IsProper.render`). Where the operands are
words and the operators arithmetic, these marks tell every part of a text from what is around it
(`Expr.grouped_cancel`).
-/
namespace LineCalc
open Numeral

theorem IsName.not_isDigits {text : Text} (isName : IsName text) : ¬ IsDigits text := by
  rintro ⟨-, digits⟩
  cases text with
  | nil => exact isName.elim
  | cons first rest =>
    have noLetter := isAlpha_of_isDigit (digits first List.mem_cons_self)
    rw [isName.1] at noLetter
    exact absurd noLetter (by decide)

namespace Operand

variable {operand other : Operand}

theorem lexeme_injective (proper : operand.IsProper) (otherProper : other.IsProper)
    (same : operand.lexeme = other.lexeme) : operand = other := by
  cases operand with
  | literal digits =>
    cases other with
    | literal others => exact congrArg literal same
    | reference name =>
      have written : name = digits := same.symm
      subst written
      exact absurd proper (IsName.not_isDigits otherProper)
    | unsupported => exact otherProper.elim
  | reference name =>
    cases other with
    | literal digits =>
      have written : name = digits := same
      subst written
      exact absurd otherProper (IsName.not_isDigits proper)
    | reference others => exact congrArg reference same
    | unsupported => exact otherProper.elim
  | unsupported => exact proper.elim

theorem lexeme_cancel (proper : operand.IsProper) (otherProper : other.IsProper) {rest more : Text}
    (ends : TokenKind.ident.EndsBefore rest) (endsOther : TokenKind.ident.EndsBefore more)
    (same : operand.lexeme ++ rest = other.lexeme ++ more) : operand = other ∧ rest = more := by
  obtain ⟨taken, left⟩ := Munch.split_at_boundary proper.characters ends
  obtain ⟨takenOther, leftOther⟩ := Munch.split_at_boundary otherProper.characters endsOther
  rw [same] at taken left
  exact ⟨lexeme_injective proper otherProper (taken.symm.trans takenOther), left.symm.trans leftOther⟩

end Operand

theorem TokenKind.sign_cancel {operator other : TokenKind} (arithmetic : Expr.isOperator operator = true)
    (otherArithmetic : Expr.isOperator other = true) {rest more : Text}
    (same : operator.sign ++ rest = other.sign ++ more) : operator = other ∧ rest = more := by
  obtain ⟨c, sign⟩ : ∃ c, operator.sign = [c] := by
    cases operator <;> first | exact ⟨_, rfl⟩ | exact absurd arithmetic (by decide)
  obtain ⟨d, signOther⟩ : ∃ d, other.sign = [d] := by
    cases other <;> first | exact ⟨_, rfl⟩ | exact absurd otherArithmetic (by decide)
  rw [sign, signOther] at same
  obtain ⟨sameSign, sameRest⟩ := List.cons.inj same
  refine ⟨?_, sameRest⟩
  have member := TokenKind.isLexeme_sign arithmetic
  have memberOther := TokenKind.isLexeme_sign otherArithmetic
  rw [sign, sameSign, ← signOther, ← ofSymbol?_eq_some_iff] at member
  rw [← ofSymbol?_eq_some_iff, member] at memberOther
  exact Option.some.inj memberOther

namespace Expr

/-- The operands are proper and the operators arithmetic, in a tree of any shape. -/
def IsProper : Expr → Prop
  | leaf operand => operand.IsProper
  | binary operator left right => isOperator operator = true ∧ left.IsProper ∧ right.IsProper

/-- The lexemes of a tree, with parentheses around each operation and spaces around its operator. -/
def grouped : Expr → Text
  | leaf operand => operand.lexeme
  | binary operator left right => '(' :: left.grouped ++ ' ' :: operator.sign ++ ' ' :: right.grouped ++ [')']

theorem Canonical.isProper {tree : Expr} (canonical : tree.Canonical) : tree.IsProper := by
  induction tree with
  | leaf => exact canonical
  | binary operator left right ihl ihr => exact ⟨canonical.arithmetic, ihl canonical.1, ihr canonical.2.1⟩

/-- The loop over the left side of a tree writes what recursion on both sides writes. -/
theorem IsProper.render {tree : Expr} (proper : tree.IsProper) : tree.render = .ok tree.grouped := by
  induction tree with
  | leaf operand =>
    rw [render_leaf]
    cases operand with
    | literal | reference => rfl
    | unsupported => exact proper.elim
  | binary operator left right ihl ihr =>
    obtain ⟨arithmetic, properLeft, properRight⟩ := proper
    rw [render_binary, ihl properLeft, ihr properRight]
    cases operator <;> first | rfl | exact absurd arithmetic (by decide)

theorem grouped_binary_append (operator : TokenKind) (left right : Expr) (rest : Text) :
    (binary operator left right).grouped ++ rest =
      '(' :: (left.grouped ++ ' ' :: (operator.sign ++ ' ' :: (right.grouped ++ ')' :: rest))) := by
  simp only [grouped, List.append_assoc, List.cons_append, List.nil_append]

theorem lexeme_ne_grouped {operand : Operand} (proper : operand.IsProper) (operator : TokenKind) (left right : Expr)
    (rest more : Text) : operand.lexeme ++ rest ≠ (binary operator left right).grouped ++ more := by
  obtain ⟨c, letters, written, low, -⟩ := proper.first
  rw [written, grouped_binary_append]
  intro same
  have first : c = '(' := (List.cons.inj same).1
  rw [first] at low
  exact absurd low (by decide)

/-- The text of a tree settles the tree, if no word goes on behind it. -/
theorem grouped_cancel {tree other : Expr} (proper : tree.IsProper) (otherProper : other.IsProper) {rest more : Text}
    (ends : TokenKind.ident.EndsBefore rest) (endsOther : TokenKind.ident.EndsBefore more)
    (same : tree.grouped ++ rest = other.grouped ++ more) : tree = other ∧ rest = more := by
  induction tree generalizing other rest more with
  | leaf operand =>
    cases other with
    | leaf others =>
      obtain ⟨rfl, sameRest⟩ := Operand.lexeme_cancel proper otherProper ends endsOther same
      exact ⟨rfl, sameRest⟩
    | binary => exact absurd same (lexeme_ne_grouped proper _ _ _ _ _)
  | binary operator left right ihl ihr =>
    cases other with
    | leaf others => exact absurd same.symm (lexeme_ne_grouped otherProper _ _ _ _ _)
    | binary operatorOther leftOther rightOther =>
      obtain ⟨arithmetic, properLeft, properRight⟩ := proper
      obtain ⟨arithmeticOther, properLeftOther, properRightOther⟩ := otherProper
      rw [grouped_binary_append, grouped_binary_append] at same
      -- A space stands behind the left side and a parenthesis behind the right one.
      have space : ∀ text : Text, TokenKind.ident.EndsBefore (' ' :: text) := by
        rintro text c ⟨⟩
        rfl
      have close : ∀ text : Text, TokenKind.ident.EndsBefore (')' :: text) := by
        rintro text c ⟨⟩
        rfl
      obtain ⟨rfl, behindLeft⟩ := ihl properLeft properLeftOther (space _) (space _) (List.cons.inj same).2
      obtain ⟨rfl, behindSign⟩ := TokenKind.sign_cancel arithmetic arithmeticOther (List.cons.inj behindLeft).2
      obtain ⟨rfl, behindRight⟩ := ihr properRight properRightOther (close _) (close _) (List.cons.inj behindSign).2
      exact ⟨rfl, (List.cons.inj behindRight).2⟩

/-- Two trees of proper operands and arithmetic operators have the same text only when they are the
    same, also where no line is read as one of them. -/
theorem render_injective {tree other : Expr} (proper : tree.IsProper) (otherProper : other.IsProper) :
    (∃ text, tree.render = .ok text) ∧ (tree.render = other.render → tree = other) := by
  refine ⟨⟨_, proper.render⟩, fun same => ?_⟩
  rw [proper.render, otherProper.render] at same
  have nothing : TokenKind.ident.EndsBefore [] := nofun
  exact (grouped_cancel proper otherProper nothing nothing (congrArg (· ++ []) (Except.ok.inj same))).1

/-- The two groupings of a difference of three operands. A line is read as the first one only. -/
theorem render_injective_groupings :
    (binary .minus (binary .minus (leaf (.literal ['1'])) (leaf (.literal ['0']))) (leaf (.reference ['x']))).IsProper ∧
      (binary .minus (leaf (.literal ['1'])) (binary .minus (leaf (.literal ['0'])) (leaf (.reference ['x'])))).IsProper ∧
      (∃ text, (binary .minus (binary .minus (leaf (.literal ['1'])) (leaf (.literal ['0'])))
        (leaf (.reference ['x']))).render = .ok text) ∧
      (binary .minus (binary .minus (leaf (.literal ['1'])) (leaf (.literal ['0']))) (leaf (.reference ['x']))).render ≠
        (binary .minus (leaf (.literal ['1'])) (binary .minus (leaf (.literal ['0'])) (leaf (.reference ['x'])))).render := by
  have one : IsDigits ['1'] := ⟨List.cons_ne_nil _ _, List.forall_mem_singleton.mpr rfl⟩
  have zero : IsDigits ['0'] := ⟨List.cons_ne_nil _ _, List.forall_mem_singleton.mpr rfl⟩
  have name : IsName ['x'] := ⟨rfl, nofun⟩
  have fromLeft : (binary .minus (binary .minus (leaf (.literal ['1'])) (leaf (.literal ['0'])))
      (leaf (.reference ['x']))).IsProper := ⟨rfl, ⟨rfl, one, zero⟩, name⟩
  have fromRight : (binary .minus (leaf (.literal ['1'])) (binary .minus (leaf (.literal ['0']))
      (leaf (.reference ['x'])))).IsProper := ⟨rfl, one, rfl, zero, name⟩
  obtain ⟨written, settled⟩ := render_injective fromLeft fromRight
  exact ⟨fromLeft, fromRight, written, fun same => absurd (settled same) (by decide)⟩

end Expr
end LineCalc
