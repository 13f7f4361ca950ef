import LineCalc.Proofs.Lexemes
import LineCalc.Statement

/-!
Expressions as chains of operands. The text of an expression has no parentheses, so it settles
only the first operand and the links behind it, each an operator with the operand on its right
(`Expr.links`). Of the trees with one chain a single one keeps the precedence of the operators and
joins them from the left (`Expr.Canonical`), and that is the tree that is read from the tokens of
the chain (`Statement.ofTokens_eq_expression_iff`).
-/
namespace LineCalc
open Numeral

/-- Digits or a name, as a line can hold them. -/
def Operand.IsProper : Operand → Prop
  | literal digits => IsDigits digits
  | reference name => IsName name
  | unsupported => False

namespace Expr

/-- The tree is an operand alone. -/
def IsLeaf : Expr → Prop
  | leaf _ => True
  | binary _ _ _ => False

/-- The tree is an operation of a multiplicative operator. -/
def IsProduct : Expr → Prop
  | leaf _ => False
  | binary operator _ _ => operator.isMultiplicative = true

/-- The tree is an operation of an additive operator. -/
def IsSum : Expr → Prop
  | leaf _ => False
  | binary operator _ _ => operator.isAdditive = true

/-- Operands are proper and operators arithmetic; a product has an operand on its right, and an
    operand or a product on its left; a sum has no sum on its right. -/
def Canonical : Expr → Prop
  | leaf operand => operand.IsProper
  | binary operator left right => left.Canonical ∧ right.Canonical ∧
      (operator.isMultiplicative = true ∧ (left.IsLeaf ∨ left.IsProduct) ∧ right.IsLeaf ∨
        operator.isAdditive = true ∧ ¬ right.IsSum)

/-- An operator and the operand on its right. -/
structure Link where
  operator : TokenKind
  operand : Operand
  deriving DecidableEq

def Link.IsProper (link : Link) : Prop := isOperator link.operator = true ∧ link.operand.IsProper

/-- The links behind the first operand, in the order of the text. -/
def links : Expr → List Link
  | leaf _ => []
  | binary operator left right => left.links ++ ⟨operator, right.first⟩ :: right.links

/-- A part of an expression with links behind it. -/
def Partial.extendAll (part : Partial) (links : List Link) : Partial :=
  links.foldl (fun part link => part.extend link.operator (leaf link.operand)) part

/-- The tree of a chain. -/
def ofChain (first : Operand) (links : List Link) : Expr := (Partial.extendAll ⟨none, leaf first⟩ links).close

/-- The part whose term may still grow when a tree has been read. -/
def Partial.ofTree : Expr → Partial
  | leaf operand => ⟨none, leaf operand⟩
  | binary operator left right =>
    if operator.isAdditive then ⟨some (left, operator), right⟩ else ⟨none, binary operator left right⟩

/-- The term is canonical and no sum, and so is what stands before it with its operator. -/
structure Partial.Canonical (part : Partial) : Prop where
  term : part.term.Canonical
  notSum : ¬ part.term.IsSum
  sum : ∀ before operator, part.sum = some (before, operator) → before.Canonical ∧ operator.isAdditive = true

/-! ## Trees of chains -/

theorem not_additive_of_multiplicative {operator : TokenKind} (product : operator.isMultiplicative = true) :
    operator.isAdditive = false := by
  cases operator <;> first | rfl | exact absurd product (by decide)

theorem not_isSum_of_factor {tree : Expr} (factor : tree.IsLeaf ∨ tree.IsProduct) : ¬ tree.IsSum := by
  cases tree with
  | leaf => exact id
  | binary operator left right =>
    rcases factor with leaf | product
    · exact leaf.elim
    · simp [IsSum, not_additive_of_multiplicative product]

theorem factor_of_not_isSum {tree : Expr} (canonical : tree.Canonical) (notSum : ¬ tree.IsSum) :
    tree.IsLeaf ∨ tree.IsProduct := by
  cases tree with
  | leaf => exact Or.inl trivial
  | binary operator left right =>
    rcases canonical.2.2 with ⟨product, -⟩ | ⟨sum, -⟩
    · exact Or.inr product
    · exact absurd sum notSum

namespace Partial

theorem extendAll_append (part : Partial) (links more : List Link) :
    part.extendAll (links ++ more) = (part.extendAll links).extendAll more := List.foldl_append

theorem extend_product {operator : TokenKind} (product : operator.isMultiplicative = true) (part : Partial) (operand : Expr) :
    part.extend operator operand = ⟨part.sum, binary operator part.term operand⟩ := by
  rw [extend, if_pos product]

theorem extend_sum {operator : TokenKind} (sum : operator.isAdditive = true) (part : Partial) (operand : Expr) :
    part.extend operator operand = ⟨some (part.close, operator), operand⟩ := by
  cases product : operator.isMultiplicative with
  | false => rw [extend, product, if_neg Bool.false_ne_true]
  | true => exact absurd (sum.symm.trans (not_additive_of_multiplicative product)) (by decide)

theorem close_ofTree (tree : Expr) : (ofTree tree).close = tree := by
  cases tree with
  | leaf => rfl
  | binary operator left right =>
    rw [ofTree]
    split <;> rfl

theorem chain_extend (part : Partial) (operator : TokenKind) (operand : Operand) :
    (part.extend operator (leaf operand)).close.first = part.close.first ∧
      (part.extend operator (leaf operand)).close.links = part.close.links ++ [⟨operator, operand⟩] := by
  obtain ⟨sum, term⟩ := part
  unfold extend
  split
  · cases sum with
    | none => exact ⟨rfl, rfl⟩
    | some => exact ⟨rfl, by simp [close, Expr.links, Expr.first]⟩
  · exact ⟨rfl, rfl⟩

theorem chain_extendAll (part : Partial) (links : List Link) :
    (part.extendAll links).close.first = part.close.first ∧
      (part.extendAll links).close.links = part.close.links ++ links := by
  induction links generalizing part with
  | nil => exact ⟨rfl, (List.append_nil _).symm⟩
  | cons link rest ih =>
    obtain ⟨first, behind⟩ := chain_extend part link.operator link.operand
    obtain ⟨first', behind'⟩ := ih (part.extend link.operator (leaf link.operand))
    refine ⟨first'.trans first, behind'.trans ?_⟩
    rw [behind, List.append_assoc]
    rfl

theorem Canonical.close {part : Partial} (canonical : part.Canonical) : part.close.Canonical := by
  obtain ⟨sum, term⟩ := part
  cases sum with
  | none => exact canonical.term
  | some before =>
    obtain ⟨left, additive⟩ := canonical.sum before.1 before.2 rfl
    exact ⟨left, canonical.term, Or.inr ⟨additive, canonical.notSum⟩⟩

theorem Canonical.extend {part : Partial} (canonical : part.Canonical) {link : Link} (proper : link.IsProper) :
    (part.extend link.operator (leaf link.operand)).Canonical := by
  obtain ⟨operator, operand⟩ := proper
  rcases Bool.or_eq_true_iff.mp operator with sum | product
  · rw [extend_sum sum]
    refine ⟨operand, id, ?_⟩
    rintro before sign ⟨⟩
    exact ⟨canonical.close, sum⟩
  · rw [extend_product product]
    have factor := factor_of_not_isSum canonical.term canonical.notSum
    refine ⟨⟨canonical.term, operand, Or.inl ⟨product, factor, trivial⟩⟩, ?_, canonical.sum⟩
    simp [IsSum, not_additive_of_multiplicative product]

theorem Canonical.extendAll {part : Partial} (canonical : part.Canonical) {links : List Link}
    (proper : ∀ link ∈ links, link.IsProper) : (part.extendAll links).Canonical := by
  induction links generalizing part with
  | nil => exact canonical
  | cons link rest ih =>
    exact ih (canonical.extend (proper link (by simp))) fun other member => proper other (by simp [member])

/-- A term grows from its first operand along its links, whatever stands before it. -/
theorem extendAll_term {term : Expr} (canonical : term.Canonical) (notSum : ¬ term.IsSum) (sum : Option (Expr × TokenKind)) :
    extendAll ⟨sum, leaf term.first⟩ term.links = ⟨sum, term⟩ := by
  induction term with
  | leaf => rfl
  | binary operator left right ihl _ =>
    obtain ⟨leftCanonical, -, ⟨product, factor, leafRight⟩ | ⟨additive, -⟩⟩ := canonical
    · cases right with
      | binary => exact leafRight.elim
      | leaf operand =>
        have before := ihl leftCanonical (not_isSum_of_factor factor)
        rw [links, extendAll_append]
        exact (congrArg (fun part => extendAll part [⟨operator, operand⟩]) before).trans (extend_product product _ _)
    · exact absurd additive notSum

theorem extendAll_tree {tree : Expr} (canonical : tree.Canonical) :
    extendAll ⟨none, leaf tree.first⟩ tree.links = ofTree tree := by
  induction tree with
  | leaf => rfl
  | binary operator left right ihl _ =>
    obtain ⟨leftCanonical, rightCanonical, ⟨product, factor⟩ | ⟨additive, notSum⟩⟩ := id canonical
    · have whole := extendAll_term canonical (by simp [IsSum, not_additive_of_multiplicative product]) none
      rw [whole, ofTree, not_additive_of_multiplicative product]
      rfl
    · have before : extendAll ⟨none, leaf (binary operator left right).first⟩ left.links = ofTree left := ihl leftCanonical
      have joined : (ofTree left).extend operator (leaf right.first) = ⟨some (left, operator), leaf right.first⟩ := by
        rw [extend_sum additive, close_ofTree]
      rw [links, extendAll_append, before, ofTree, if_pos additive]
      exact (congrArg (fun part => extendAll part right.links) joined).trans (extendAll_term rightCanonical notSum _)

end Partial

/-- A canonical tree is the tree of its chain. -/
theorem ofChain_links {tree : Expr} (canonical : tree.Canonical) : ofChain tree.first tree.links = tree := by
  rw [ofChain, Partial.extendAll_tree canonical, Partial.close_ofTree]

theorem chain_ofChain (first : Operand) (links : List Link) :
    (ofChain first links).first = first ∧ (ofChain first links).links = links :=
  Partial.chain_extendAll ⟨none, leaf first⟩ links

theorem canonical_ofChain {first : Operand} (proper : first.IsProper) {links : List Link}
    (properLinks : ∀ link ∈ links, link.IsProper) : (ofChain first links).Canonical := by
  have start : Partial.Canonical ⟨none, leaf first⟩ := ⟨proper, id, by rintro _ _ ⟨⟩⟩
  exact (start.extendAll properLinks).close

theorem Canonical.arithmetic {operator : TokenKind} {left right : Expr} (canonical : (binary operator left right).Canonical) :
    isOperator operator = true := by
  rcases canonical.2.2 with ⟨product, -⟩ | ⟨sum, -⟩
  · simp [isOperator, product]
  · simp [isOperator, sum]

theorem Canonical.chain {tree : Expr} (canonical : tree.Canonical) :
    tree.first.IsProper ∧ ∀ link ∈ tree.links, link.IsProper := by
  induction tree with
  | leaf => exact ⟨canonical, by simp [links]⟩
  | binary operator left right ihl ihr =>
    obtain ⟨first, before⟩ := ihl canonical.1
    obtain ⟨middle, behind⟩ := ihr canonical.2.1
    refine ⟨first, fun link member => ?_⟩
    rcases List.mem_append.mp member with early | late
    · exact before link early
    · rcases List.mem_cons.mp late with rfl | late
      · exact ⟨canonical.arithmetic, middle⟩
      · exact behind link late

/-! ## Reading a chain from tokens -/

/-- The tokens of links: an operator and an operand for each of them. -/
inductive Written : List Token → List Link → Prop
  | nil : Written [] []
  | cons {sign word : Token} {operand : Operand} {tokens : List Token} {links : List Link} :
      isOperator sign.kind = true → Operand.ofToken? word = some operand → Written tokens links →
      Written (sign :: word :: tokens) (⟨sign.kind, operand⟩ :: links)

/-- The tokens of links are read up to the next token, which is no operator. -/
theorem continueTokens_written {tokens : List Token} {links : List Link} (written : Written tokens links)
    (part : Partial) {last : Token} (ends : isOperator last.kind = false) (rest : List Token) :
    continueTokens part (tokens ++ last :: rest) = ⟨.ok (part.extendAll links).close, last :: rest⟩ := by
  induction written generalizing part with
  | nil => cases rest <;> simp [continueTokens, ends, Partial.extendAll]
  | @cons sign word operand tokens links operator isOperand _ ih =>
    have behind := ih (part.extend sign.kind (leaf operand))
    simpa [continueTokens, operator, isOperand, Partial.extendAll] using behind

/-- What is read from tokens are links, and what is left begins with no operator. -/
theorem written_of_continueTokens {part : Partial} {tokens left : List Token} {tree : Expr}
    (read : continueTokens part tokens = ⟨.ok tree, left⟩) :
    ∃ front links, tokens = front ++ left ∧ Written front links ∧ tree = (part.extendAll links).close := by
  fun_induction continueTokens part tokens with
  | case1 | case2 | case5 | case6 => cases read
  | case3 part token notOperator | case7 part token next rest notOperator =>
    cases read
    exact ⟨[], [], rfl, .nil, rfl⟩
  | case4 part sign word rest operator operand isOperand ih =>
    obtain ⟨front, links, whole, written, built⟩ := ih read
    exact ⟨sign :: word :: front, ⟨sign.kind, operand⟩ :: links, by rw [whole]; rfl, .cons operator isOperand written, built⟩

end Expr

theorem Statement.readExpression_eq_ok_iff {operand : Operand} {tokens : List Token} {statement : Statement} :
    (readExpression operand tokens).outcome = .ok statement ↔
      ∃ front links last rest, tokens = front ++ last :: rest ∧ last.kind = .eof ∧ Expr.Written front links ∧
        statement = .expression (Expr.ofChain operand links) := by
  constructor
  · intro read
    unfold readExpression at read
    split at read
    next => cases read
    next => cases read
    next tree last rest found =>
      split at read
      next ends =>
        obtain ⟨front, links, whole, written, built⟩ := Expr.written_of_continueTokens found
        cases read
        exact ⟨front, links, last, rest, whole, ends, written, by rw [built]; rfl⟩
      next => cases read
  · rintro ⟨front, links, last, rest, rfl, ends, written, rfl⟩
    have notOperator : Expr.isOperator last.kind = false := by rw [ends]; rfl
    rw [readExpression, Expr.continueTokens_written written _ notOperator]
    simp only [ends, if_true]
    rfl

theorem Operand.ofToken?_eq_some_iff {token : Token} {operand : Operand} :
    ofToken? token = some operand ↔
      token.kind = .int ∧ operand = .literal token.lexeme ∨ token.kind = .ident ∧ operand = .reference token.lexeme := by
  unfold ofToken?
  cases token.kind <;> simp [eq_comm]

theorem Expr.Written.not_opensAssignment {first : Token} {front back : List Token} {links : List Expr.Link}
    (written : Expr.Written front links) (ends : ∀ last, back.head? = some last → last.kind ≠ .assign) :
    Scan.opensAssignment (first :: (front ++ back)) = false := by
  cases written with
  | nil =>
    cases back with
    | nil => rfl
    | cons last rest => simp [Scan.opensAssignment, ends last rfl]
  | cons operator =>
    simp only [List.cons_append, Scan.opensAssignment, Bool.and_eq_false_iff, decide_eq_false_iff_not]
    refine Or.inr fun assign => ?_
    rw [assign] at operator
    exact absurd operator (by decide)

namespace Statement

theorem ofTokens_of_not_opensAssignment {line : Text} {first : Token} {rest : List Token}
    (closed : Scan.opensAssignment (first :: rest) = false) :
    ofTokens line (first :: rest) =
      match Operand.ofToken? first with
      | some operand => readExpression operand rest
      | none => .fault .unrecognized first rest := by
  cases rest <;> cases isOperand : Operand.ofToken? first <;> simp only [ofTokens, closed, isOperand]

theorem ofTokens_of_opensAssignment {line : Text} {first sign : Token} {rest : List Token}
    (opens : Scan.opensAssignment (first :: sign :: rest) = true) :
    ofTokens line (first :: sign :: rest) = readAssignment line (first :: sign :: rest) first sign := by
  unfold ofTokens
  simp only [opens]

theorem readAssignment_outcome (line : Text) (tokens : List Token) (name sign : Token) :
    (∃ value column, (readAssignment line tokens name sign).outcome = .ok (.assignment name.lexeme value column)) ∨
      ∃ fault column, (readAssignment line tokens name sign).outcome = .error (.line (.malformed fault column)) := by
  unfold readAssignment
  dsimp only
  split
  · exact Or.inr ⟨_, _, rfl⟩
  · exact Or.inl ⟨_, _, rfl⟩

/-- The tokens of an expression are an operand, links and the end; its tree is the tree of
    their chain. -/
theorem ofTokens_eq_expression_iff {line : Text} {tokens : List Token} {tree : Expr} :
    (ofTokens line tokens).outcome = .ok (.expression tree) ↔
      ∃ first operand front links last rest, tokens = first :: (front ++ last :: rest) ∧
        Operand.ofToken? first = some operand ∧ Expr.Written front links ∧ last.kind = .eof ∧
        tree = Expr.ofChain operand links := by
  constructor
  · intro read
    cases tokens with
    | nil => cases read
    | cons first tokens =>
      cases opens : Scan.opensAssignment (first :: tokens) with
      | true =>
        cases tokens with
        | nil => cases opens
        | cons sign tokens =>
          rw [ofTokens_of_opensAssignment opens] at read
          rcases readAssignment_outcome line (first :: sign :: tokens) first sign with ⟨_, _, found⟩ | ⟨_, _, found⟩
          all_goals exact absurd (found.symm.trans read) (by simp)
      | false =>
        rw [ofTokens_of_not_opensAssignment opens] at read
        split at read
        next operand isOperand =>
          obtain ⟨front, links, last, rest, whole, ends, written, built⟩ := readExpression_eq_ok_iff.mp read
          cases built
          exact ⟨first, operand, front, links, last, rest, by rw [whole], isOperand, written, ends, rfl⟩
        next => cases read
  · rintro ⟨first, operand, front, links, last, rest, rfl, isOperand, written, ends, rfl⟩
    have closed : ∀ other, (last :: rest).head? = some other → other.kind ≠ .assign := by
      rintro other ⟨⟩
      simp [ends]
    rw [ofTokens_of_not_opensAssignment (written.not_opensAssignment closed), isOperand]
    exact readExpression_eq_ok_iff.mpr ⟨front, links, last, rest, rfl, ends, written, rfl⟩

end Statement
end LineCalc
