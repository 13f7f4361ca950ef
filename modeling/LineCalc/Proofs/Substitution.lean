import LineCalc.Proofs.Frame

/-!
Lines with their names spelled anew. Other characters can be put in the places of the names of a
line, while its gaps and its other words stay (`Statement.respell`). Where the new spellings are
those of operands, an expression becomes the one with these operands in the places of its names
(`Statement.ofLine_respell`), and its value follows from theirs (`Expr.evaluate_substitute`).
-/
namespace LineCalc
open Numeral Scan

/-- An error that tells no name. -/
def LineError.Nameless (error : LineError) : Prop := error.kind ≠ .redefinition ∧ error.kind ≠ .undefinedVariable

def Failure.Nameless : Failure → Prop
  | line error => error.Nameless
  | _ => True

/-- The operand with another one in the place of a name. -/
def Operand.substitute (meaning : Text → Operand) : Operand → Operand
  | literal digits => literal digits
  | reference name => meaning name
  | unsupported => unsupported

/-- The numeral of a value stands for one name. -/
def Operand.inline (name : Text) (value : Int) (other : Text) : Operand :=
  if other = name then literal (Numeral.print value) else reference other

def Expr.Link.substitute (meaning : Text → Operand) (link : Link) : Link :=
  ⟨link.operator, link.operand.substitute meaning⟩

/-- The tree with operands in the places of its names. -/
def Expr.substitute (meaning : Text → Operand) : Expr → Expr
  | leaf operand => leaf (operand.substitute meaning)
  | binary operator left right => binary operator (left.substitute meaning) (right.substitute meaning)

def Token.respelled (spell : Text → Text) (token : Token) : Text :=
  if token.kind = .ident then spell token.lexeme else token.lexeme

/-- A text that begins after `position` characters of its line, with other characters in the places
    of its tokens. -/
def Scan.splice (spell : Token → Text) (position : Nat) : List Token → Text → Text
  | [], text => text
  | token :: rest, text =>
    text.take (token.column - 1 - position).toNat ++ spell token ++
      splice spell (token.endColumn - 1).toNat rest (text.drop (token.endColumn - 1 - position).toNat)

/-- An expression has all of its names spelled anew, an assignment the one that it assigns to. -/
def Statement.respell (spell : Text → Text) (line : Text) : Text :=
  if isComment line then line
  else match ofStatement line with
    | .error _ => line
    | .ok tokens => splice (Token.respelled spell) 0 tokens line

/-! ## Values -/

theorem LineError.Nameless.of_kind {error : LineError} (kind : ErrorKind) (same : error.kind = kind)
    (other : kind ≠ .redefinition ∧ kind ≠ .undefinedVariable) : error.Nameless := by
  rwa [← same] at other

theorem TokenKind.apply_nameless {operator : TokenKind} {left right : Int} {failure : Failure}
    (failed : operator.apply left right = .error failure) : failure.Nameless := by
  rw [apply] at failed
  split at failed
  · cases failed
    trivial
  next operation _ =>
    split at failed
    next error applied =>
      cases failed
      cases operation with
      | add | sub | mul => cases applied
      | div | rem =>
        rw [Operation.apply] at applied
        split at applied <;> cases applied
        exact LineError.Nameless.of_kind .arithmetic rfl (by decide)
    next => cases failed

namespace Expr

variable {tree : Expr} {meaning : Text → Operand}

/-- With operands in the places of its names a tree has the same value, where each name has the
    value of its operand. -/
theorem evaluate_substitute {environment other : Environment} {change : Failure → Failure}
    (kept : ∀ failure : Failure, failure.Nameless → change failure = failure)
    (names : ∀ name ∈ tree.names,
      (meaning name).evaluate other = ((Operand.reference name).evaluate environment).mapError change) :
    (tree.substitute meaning).evaluate other = (tree.evaluate environment).mapError change := by
  induction tree with
  | leaf operand =>
    rw [substitute, evaluate_leaf, evaluate_leaf]
    cases operand with
    | reference name => exact names name (by simp [Expr.names])
    | literal digits =>
      rw [Operand.substitute, Operand.evaluate, Operand.evaluate]
      cases read : Numeral.read digits with
      | ok value => rfl
      | error error =>
        obtain ⟨-, rfl⟩ := read_eq_error_iff.mp read
        have nameless : (LineError.badNumeral digits).Nameless := .of_kind .numberFormat rfl (by decide)
        exact congrArg Except.error (kept (.line _) nameless).symm
    | unsupported => exact congrArg Except.error (kept .unsupportedExpression trivial).symm
  | binary operator left right ihl ihr =>
    have sameLeft := ihl fun name member => names name (List.mem_append_left _ member)
    have sameRight := ihr fun name member => names name (List.mem_append_right _ member)
    rw [substitute, evaluate_binary, evaluate_binary, sameLeft, sameRight]
    cases left.evaluate environment with
    | error => rfl
    | ok leftValue =>
      cases right.evaluate environment with
      | error => rfl
      | ok rightValue =>
        show operator.apply leftValue rightValue = (operator.apply leftValue rightValue).mapError change
        cases applied : operator.apply leftValue rightValue with
        | ok value => rfl
        | error failure => exact congrArg Except.error (kept failure (TokenKind.apply_nameless applied)).symm

theorem evaluate_substitute_same {environment other : Environment}
    (names : ∀ name ∈ tree.names, (meaning name).evaluate other = (Operand.reference name).evaluate environment) :
    (tree.substitute meaning).evaluate other = tree.evaluate environment := by
  have unchanged : ∀ outcome : Except Failure Int, outcome.mapError id = outcome := by
    intro outcome
    cases outcome <;> rfl
  rw [← unchanged (tree.evaluate environment)]
  refine evaluate_substitute (fun _ _ => rfl) ?_
  intro name member
  rw [unchanged]
  exact names name member

/-! ## Canonical trees and their lexemes -/

theorem Canonical.isName (canonical : tree.Canonical) : ∀ name ∈ tree.names, IsName name := by
  induction tree with
  | leaf operand =>
    intro name member
    cases operand with
    | reference other =>
      rw [List.mem_singleton.mp member]
      exact canonical
    | literal | unsupported => cases member
  | binary operator left right ihl ihr =>
    intro name member
    rcases List.mem_append.mp member with before | behind
    · exact ihl canonical.1 name before
    · exact ihr canonical.2.1 name behind

theorem isLeaf_substitute : (tree.substitute meaning).IsLeaf ↔ tree.IsLeaf := by cases tree <;> rfl

theorem isProduct_substitute : (tree.substitute meaning).IsProduct ↔ tree.IsProduct := by cases tree <;> rfl

theorem isSum_substitute : (tree.substitute meaning).IsSum ↔ tree.IsSum := by cases tree <;> rfl

/-- Proper operands in the places of its names keep a tree canonical. -/
theorem Canonical.substitute (canonical : tree.Canonical) (proper : ∀ name, IsName name → (meaning name).IsProper) :
    (tree.substitute meaning).Canonical := by
  induction tree with
  | leaf operand =>
    cases operand with
    | reference name => exact proper name canonical
    | literal | unsupported => exact canonical
  | binary operator left right ihl ihr =>
    obtain ⟨leftCanonical, rightCanonical, shape⟩ := canonical
    refine ⟨ihl leftCanonical, ihr rightCanonical, ?_⟩
    simpa only [isLeaf_substitute, isProduct_substitute, isSum_substitute] using shape

theorem chain_substitute (tree : Expr) (meaning : Text → Operand) :
    (tree.substitute meaning).first = tree.first.substitute meaning ∧
      (tree.substitute meaning).links = tree.links.map (Link.substitute meaning) := by
  induction tree with
  | leaf => exact ⟨rfl, rfl⟩
  | binary operator left right ihl ihr =>
    refine ⟨ihl.1, ?_⟩
    simp only [substitute, links, ihl.2, ihr.1, ihr.2, List.map_append, List.map_cons, Link.substitute]

end Expr

section
variable {spell : Text → Text} {meaning : Text → Operand}
  (spelled : ∀ name, IsName name → spell name = (meaning name).lexeme)
include spelled

theorem Operand.respelled_of_token {token : Token} (lexeme : token.kind.IsLexeme token.lexeme) {operand : Operand}
    (isOperand : ofToken? token = some operand) : token.respelled spell = (operand.substitute meaning).lexeme := by
  obtain ⟨proper, -⟩ := proper_of_token lexeme isOperand
  rcases ofToken?_eq_some_iff.mp isOperand with ⟨kind, rfl⟩ | ⟨kind, rfl⟩
  · simp [Token.respelled, kind, Operand.substitute, Operand.lexeme]
  · simpa [Token.respelled, kind, Operand.substitute] using spelled token.lexeme proper

theorem Expr.Written.respelled {tokens : List Token} {links : List Link} (written : Written tokens links)
    (isLexeme : ∀ token ∈ tokens, token.kind.IsLexeme token.lexeme) :
    tokens.map (Token.respelled spell) = (links.map (Link.substitute meaning)).flatMap Link.lexemes := by
  induction written with
  | nil => rfl
  | @cons sign word operand tokens links operator isOperand _ ih =>
    have behind := ih fun token member => isLexeme token (by simp [member])
    have notName : sign.kind ≠ .ident := by
      intro name
      rw [name] at operator
      exact absurd operator (by decide)
    have same : sign.respelled spell = sign.kind.sign := by
      rw [Token.respelled, if_neg notName, (isLexeme sign (by simp)).sign operator]
    have word := Operand.respelled_of_token spelled (isLexeme word (by simp)) isOperand
    simp [Link.lexemes, Link.substitute, behind, same, word]

end

/-! ## Values in the places of names -/

namespace Operand

theorem inline_isProper {name other : Text} {value : Int} (natural : 0 ≤ value) (isName : IsName other) :
    (inline name value other).IsProper := by
  have digits : IsDigits (Numeral.print value) := by
    rw [print_eq_decimal, decimal, if_neg (Int.not_lt.mpr natural)]
    exact isDigits_toDigits _
  by_cases same : other = name
  · simpa [inline, same, IsProper] using digits
  · simpa [inline, same, IsProper] using isName

theorem evaluate_inline {environment : Environment} {name : Text} {value : Int}
    (bound : environment.lookup? name = some value) (other : Text) :
    (inline name value other).evaluate environment = (reference other).evaluate environment := by
  have read : Numeral.read (Numeral.print value) = .ok value := by
    rw [print_eq_decimal, read_eq_ok_iff, IsNumeral, unsigned_decimal]
    exact ⟨isDigits_toDigits _, (integerOf_decimal value).symm⟩
  by_cases same : other = name
  · simp [inline, same, evaluate, read, Environment.lookup, bound]
  · simp [inline, same]

end Operand

/-! ## Lines -/

theorem isGap_nil : IsGap [] := List.forall_mem_nil _

namespace Scan

variable (spell : Token → Text)

theorem splice_token (start : Nat) (kind : TokenKind) (gap lexeme after : Text) (rest : List Token) :
    splice spell start (⟨kind, lexeme, (start + gap.length : Nat) + 1⟩ :: rest) (gap ++ lexeme ++ after) =
      gap ++ spell ⟨kind, lexeme, (start + gap.length : Nat) + 1⟩ ++
        splice spell (start + gap.length + lexeme.length) rest after := by
  have before : (((start + gap.length : Nat) : Int) + 1 - 1 - start).toNat = gap.length := by omega
  have behind : (((start + gap.length : Nat) : Int) + 1 + lexeme.length - 1).toNat =
      start + gap.length + lexeme.length := by omega
  have inside : (((start + gap.length : Nat) : Int) + 1 + lexeme.length - 1 - start).toNat =
      gap.length + lexeme.length := by omega
  have taken : (gap ++ lexeme ++ after).take gap.length = gap := by simp
  have dropped : (gap ++ lexeme ++ after).drop (gap.length + lexeme.length) = after := by
    rw [← List.length_append, List.drop_left]
  simp only [splice, Token.endColumn, before, behind, inside, taken, dropped]

theorem splice_atEnd (position : Nat) (tokens : List Token) (text : Text) {column : Int}
    (nothing : spell (Token.atEnd column) = []) :
    splice spell position (tokens ++ [Token.atEnd column]) text = splice spell position tokens text := by
  induction tokens generalizing position text with
  | nil =>
    have empty : (Token.atEnd column).endColumn = (Token.atEnd column).column := Int.add_zero _
    simp [splice, nothing, empty]
  | cons token rest ih => simp only [List.cons_append, splice, ih]

theorem Reads.spells_splice {position : Nat} {text : Text} {tokens : List Token} (reads : Reads position text tokens)
    {gap : Text} (isGap : IsGap gap) (start : Nat) (place : position = start + gap.length) :
    Spells (tokens.map spell) (splice spell start tokens (gap ++ text)) := by
  induction reads generalizing gap start with
  | finish => simpa [splice] using Spells.nil isGap
  | @gap position c rest tokens blank _ ih =>
    have longer : IsGap (gap ++ [c]) := by
      intro d member
      rcases List.mem_append.mp member with inside | last
      · exact isGap d inside
      · rw [List.mem_singleton.mp last]
        exact isGap_iff.mp blank
    have behind := ih longer start (by simp only [List.length_append, List.length_singleton]; omega)
    rwa [List.append_assoc] at behind
  | @token position kind lexeme after tokens _ _ _ ih =>
    have behind := ih isGap_nil (start + gap.length + lexeme.length) (by simp [place])
    rw [place, ← List.append_assoc, splice_token]
    exact Spells.cons isGap behind

end Scan

namespace Statement

theorem ofStatement_of_expression {line : Text} {tree : Expr} (accepted : ofLine line = .ok (.expression tree)) :
    isComment line = false ∧
      ∃ column, ofStatement line = .ok ((Scan.ofText none line).tokens ++ [Token.atEnd column]) := by
  obtain ⟨-, first, operand, rest, links, tokens, -, written, -⟩ := tokens_of_expression accepted
  have closed : opensAssignment (Scan.ofText none line).tokens = false := by
    rw [tokens, ← List.append_nil rest]
    exact written.not_opensAssignment (by rintro _ ⟨⟩)
  have all : ofStatement line = tokenize none line := by rw [ofStatement_eq, closed, if_neg Bool.false_ne_true]
  rw [ofLine] at accepted
  split at accepted
  · cases accepted
  next wordy =>
    refine ⟨by simpa using wordy, ?_⟩
    rw [all] at accepted ⊢
    split at accepted
    · cases accepted
    next found =>
      obtain ⟨-, column, same⟩ := tokenize_eq_ok found
      exact ⟨column, by rw [found, same]⟩

theorem ofLine_respell {line : Text} {tree : Expr} (accepted : ofLine line = .ok (.expression tree))
    {meaning : Text → Operand} (proper : ∀ name, IsName name → (meaning name).IsProper) {spell : Text → Text}
    (spelled : ∀ name, IsName name → spell name = (meaning name).lexeme) :
    ofLine (respell spell line) = .ok (.expression (tree.substitute meaning)) := by
  obtain ⟨canonical, -⟩ := canonical_of_expression accepted
  obtain ⟨reads, first, operand, rest, links, tokens, isOperand, written, rfl⟩ := tokens_of_expression accepted
  obtain ⟨wordy, column, scanned⟩ := ofStatement_of_expression accepted
  have isLexeme := reads.isLexeme
  have line' : respell spell line = splice (Token.respelled spell) 0 (Scan.ofText none line).tokens line := by
    rw [respell, wordy, if_neg Bool.false_ne_true, scanned]
    exact splice_atEnd _ 0 _ line rfl
  refine expression_of_spells (canonical.substitute proper) ?_
  -- The operands and links of the new tree are those of the old one, one by one.
  obtain ⟨sameFirst, sameLinks⟩ := Expr.chain_substitute (Expr.ofChain operand links) meaning
  obtain ⟨oldFirst, oldLinks⟩ := Expr.chain_ofChain operand links
  rw [oldFirst] at sameFirst
  rw [oldLinks] at sameLinks
  have spells := reads.spells_splice (Token.respelled spell) isGap_nil 0 rfl
  rw [List.nil_append, ← line', tokens] at spells
  rw [tokens] at isLexeme
  rw [Expr.lexemes_eq, sameFirst, sameLinks, ← Operand.respelled_of_token spelled (isLexeme first (by simp)) isOperand,
    ← written.respelled spelled fun token member => isLexeme token (by simp [member])]
  exact spells

/-- The numeral of its value can stand for a name that is bound to no negative number: with it
    an expression is one again, and it has the same value or fails alike. -/
theorem ofLine_inline {line : Text} {tree : Expr} (accepted : ofLine line = .ok (.expression tree))
    {environment : Environment} {name : Text} {value : Int} (bound : environment.lookup? name = some value)
    (natural : 0 ≤ value) :
    ∃ inlined, ofLine (respell (fun other => if other = name then Numeral.print value else other) line) =
        .ok (.expression inlined) ∧
      inlined.evaluate environment = tree.evaluate environment := by
  refine ⟨tree.substitute (Operand.inline name value), ofLine_respell accepted ?_ ?_, ?_⟩
  · intro other isName
    exact Operand.inline_isProper natural isName
  · intro other _
    by_cases same : other = name <;> simp [Operand.inline, same, Operand.lexeme]
  · refine Expr.evaluate_substitute_same ?_
    intro other _
    exact Operand.evaluate_inline bound other

theorem ofLine_inline_dividend :
    ∃ tree inlined, ofLine "x1*x - \ty/x".toList = .ok (.expression tree) ∧
      respell (fun other => if other = "x".toList then Numeral.print 12 else other) "x1*x - \ty/x".toList =
        "x1*12 - \ty/12".toList ∧
      ofLine "x1*12 - \ty/12".toList = .ok (.expression inlined) ∧
      inlined.evaluate ⟨[("x1".toList, -3), ("x".toList, 12), ("y".toList, 25)]⟩ =
        tree.evaluate ⟨[("x1".toList, -3), ("x".toList, 12), ("y".toList, 25)]⟩ := by
  have accepted : ofLine "x1*x - \ty/x".toList =
      .ok (.expression (.binary .minus
        (.binary .star (.leaf (.reference ['x', '1'])) (.leaf (.reference ['x'])))
        (.binary .slash (.leaf (.reference ['y'])) (.leaf (.reference ['x']))))) := by decide +kernel
  have replaced : respell (fun other => if other = "x".toList then Numeral.print 12 else other) "x1*x - \ty/x".toList =
      "x1*12 - \ty/12".toList := by decide +kernel
  have bound : Environment.lookup? ⟨[("x1".toList, -3), ("x".toList, 12), ("y".toList, 25)]⟩ "x".toList = some 12 := by
    decide +kernel
  obtain ⟨inlined, again, same⟩ := ofLine_inline accepted bound (by decide)
  rw [replaced] at again
  exact ⟨_, inlined, accepted, replaced, again, same⟩

end Statement
end LineCalc
