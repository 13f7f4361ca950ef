import LineCalc.Proofs.Assignment
import LineCalc.Proofs.Placement

/-!
The tokens of lines that are accepted (`AcceptedTokens`): operands and operators in turns, unless
a line assigns. A line with an operand and links is accepted (`Statement.ofLine_of_written`), no
accepted line begins with tokens whose last one has the wrong kind for its place
(`AcceptedTokens.not_begins`), and none ends behind an operator (`AcceptedTokens.kinds_ne`).
-/
namespace LineCalc
open Scan

/-! ## Operands and operators in turns -/

/-- At even places of an expression stand operands, at odd ones operators. -/
def TokenKind.Fits (place : Nat) (kind : TokenKind) : Prop :=
  if place % 2 = 0 then kind = .int ∨ kind = .ident else Expr.isOperator kind = true

/-- Each token of an expression fits its place, and the last one is an operand. -/
structure Alternates (tokens : List Token) : Prop where
  fits : ∀ (place : Nat) (token : Token), tokens[place]? = some token → token.kind.Fits place
  odd : tokens.length % 2 = 1

theorem Operand.fits_of_token {token : Token} {operand : Operand} (isOperand : ofToken? token = some operand) :
    token.kind = .int ∨ token.kind = .ident :=
  (ofToken?_eq_some_iff.mp isOperand).imp And.left And.left

theorem Operand.ofToken?_eq_none_iff {token : Token} : ofToken? token = none ↔ ¬ (token.kind = .int ∨ token.kind = .ident) := by
  unfold ofToken?
  cases token.kind <;> simp

theorem Expr.Written.alternates {first : Token} {operand : Operand} {rest : List Token} {links : List Link}
    (isOperand : Operand.ofToken? first = some operand) (written : Written rest links) : Alternates (first :: rest) := by
  induction written generalizing first operand with
  | nil =>
    refine ⟨fun place token found => ?_, rfl⟩
    cases place with
    | zero =>
      cases found
      exact Operand.fits_of_token isOperand
    | succ => simp at found
  | @cons sign word operand tokens links operator isWord written ih =>
    obtain ⟨fits, odd⟩ := ih isWord
    constructor
    · intro place token found
      match place, found with
      | 0, found =>
        cases found
        exact Operand.fits_of_token isOperand
      | 1, found =>
        cases found
        exact operator
      | place + 2, found =>
        have behind := fits place token (by simpa using found)
        rwa [TokenKind.Fits, Nat.add_mod_right]
    · simp only [List.length_cons] at odd ⊢
      omega

/-! ## Parts of a text -/

theorem TokenKind.EndsBefore.append {kind : TokenKind} {after back : Text} (ends : kind.EndsBefore after)
    (boundary : ∀ c, back.head? = some c → isNameCharacter c = false) : kind.EndsBefore (after ++ back) := by
  cases after with
  | nil =>
    cases kind with
    | ident => exact boundary
    | int => exact fun c first => (Bool.or_eq_false_iff.mp (boundary c first)).2
    | _ => trivial
  | cons => exact ends

theorem TokenKind.EndsBefore.of_append {kind : TokenKind} {front back : Text} (ends : kind.EndsBefore (front ++ back)) :
    kind.EndsBefore front := by
  cases front with
  | nil =>
    cases kind with
    | ident => rintro c ⟨⟩
    | int => rintro c ⟨⟩
    | _ => trivial
  | cons => exact ends

namespace Scan

/-- A text behind what has been read is read by itself, if it goes on with no letter and no digit. -/
theorem Reads.append {position : Nat} {front back : Text} {first second : List Token} (reads : Reads position front first)
    (behind : Reads (position + front.length) back second)
    (boundary : ∀ c, back.head? = some c → isNameCharacter c = false) : Reads position (front ++ back) (first ++ second) := by
  induction reads with
  | finish => exact behind
  | @gap position c rest tokens blank _ ih =>
    rw [List.length_cons, Nat.add_comm rest.length, ← Nat.add_assoc] at behind
    exact .gap blank (ih behind)
  | @token position kind lexeme after tokens isLexeme ends _ ih =>
    rw [List.length_append, ← Nat.add_assoc] at behind
    rw [List.append_assoc]
    exact .token isLexeme (ends.append boundary) (ih behind)

/-- The first tokens of a text are read from a part of it alone. -/
theorem Reads.front {position : Nat} {text : Text} {first second : List Token} (reads : Reads position text (first ++ second)) :
    ∃ before after, text = before ++ after ∧ Reads position before first := by
  generalize whole : first ++ second = tokens at reads
  induction reads generalizing first with
  | finish =>
    obtain ⟨rfl, -⟩ := List.append_eq_nil_iff.mp whole
    exact ⟨[], [], rfl, .finish⟩
  | @gap position c rest tokens blank _ ih =>
    obtain ⟨before, after, rfl, reads⟩ := ih whole
    exact ⟨c :: before, after, rfl, .gap blank reads⟩
  | @token position kind lexeme after tokens isLexeme ends _ ih =>
    cases first with
    | nil => exact ⟨[], _, rfl, .finish⟩
    | cons token first =>
      obtain ⟨rfl, rest⟩ := List.cons.inj whole
      obtain ⟨before, behind, rfl, reads⟩ := ih rest
      exact ⟨lexeme ++ before, behind, (List.append_assoc ..).symm, .token isLexeme ends.of_append reads⟩

theorem reads_zero (position : Nat) : Reads position ['0'] [⟨.int, ['0'], position + 1⟩] :=
  have isDigits : Numeral.IsDigits ['0'] := ⟨List.cons_ne_nil _ _, List.forall_mem_singleton.mpr rfl⟩
  @Reads.token position .int ['0'] [] [] (.number isDigits) nofun .finish

end Scan

theorem Expr.Written.append_link {tokens : List Token} {links : List Link} {sign word : Token} {operand : Operand}
    (written : Written tokens links) (operator : isOperator sign.kind = true) (isOperand : Operand.ofToken? word = some operand) :
    Written (tokens ++ [sign, word]) (links ++ [⟨sign.kind, operand⟩]) := by
  induction written with
  | nil => exact .cons operator isOperand .nil
  | cons before isWord _ ih => exact .cons before isWord ih

/-! ## The tokens of accepted lines -/

/-- The tokens of a line that is accepted, as far as it can be scanned. -/
def AcceptedTokens (tokens : List Token) : Prop :=
  ∃ line statement, Statement.ofLine line = .ok statement ∧ tokens = (ofText none line).tokens

theorem TokenKind.IsLexeme.first_bounds {kind : TokenKind} {text : Text} (isLexeme : kind.IsLexeme text) :
    ∃ c rest, text = c :: rest ∧ 36 ≤ c.toNat ∧ c.toNat ≤ 122 := by
  cases isLexeme with
  | name written =>
    obtain ⟨c, rest, same, low, high⟩ := Operand.IsProper.first (show (Operand.reference text).IsProper from written)
    exact ⟨c, rest, same, by omega, high⟩
  | number written =>
    obtain ⟨c, rest, same, low, high⟩ := Operand.IsProper.first (show (Operand.literal text).IsProper from written)
    exact ⟨c, rest, same, by omega, high⟩
  | symbol member =>
    have bounds : ∀ entry ∈ symbols, (entry.1.all fun c => 36 ≤ c.toNat && c.toNat ≤ 122) = true := by decide
    obtain ⟨c, rest, rfl, -⟩ := (IsLexeme.symbol member).first
    have within := List.all_eq_true.mp (bounds _ member) c List.mem_cons_self
    rw [Bool.and_eq_true, decide_eq_true_eq, decide_eq_true_eq] at within
    exact ⟨c, rest, rfl, within⟩

namespace Statement

theorem isComment_of_lexeme {kind : TokenKind} {gap lexeme after : Text} (isGap : IsGap gap) (isLexeme : kind.IsLexeme lexeme) :
    isComment (gap ++ lexeme ++ after) = false := by
  obtain ⟨c, more, rfl, low, high⟩ := isLexeme.first_bounds
  rw [List.append_assoc]
  exact isComment_of_character isGap low (by omega)

theorem isComment_of_isGap {line : Text} (isGap : IsGap line) : isComment line = true := by
  have blank : ∀ c ∈ line, Text.isBlank c = true := fun c member => by rcases isGap c member with rfl | rfl <;> decide
  rw [isComment, Text.strip_eq_nil_iff.mpr blank]
  rfl

theorem tokens_of_isComment {line : Text} (comment : isComment line = true) : (Scan.ofText none line).tokens = [] := by
  cases found : (Scan.ofText none line).tokens with
  | nil => rfl
  | cons token more =>
    obtain ⟨gap, after, rfl, isGap, isLexeme, -⟩ := exists_lexeme found
    rw [isComment_of_lexeme isGap isLexeme] at comment
    cases comment

/-- A text whose tokens are an operand and links is accepted. -/
theorem ofLine_of_written {text : Text} {first : Token} {rest : List Token} {operand : Operand} {links : List Expr.Link}
    (reads : Reads 0 text (first :: rest)) (isOperand : Operand.ofToken? first = some operand)
    (written : Expr.Written rest links) : ofLine text = .ok (.expression (Expr.ofChain operand links)) := by
  have scanned : (Scan.ofText none text).tokens = first :: rest := congrArg Scan.tokens (scanFrom_of_reads reads)
  have wordy : isComment text = false := by
    cases comment : isComment text with
    | false => rfl
    | true => cases scanned.symm.trans (tokens_of_isComment comment)
  rw [ofLine_of_tokens wordy (tokenize_of_reads reads)]
  exact ofTokens_eq_expression_iff.mpr ⟨first, operand, rest, links, _, [], rfl, isOperand, written, rfl, rfl⟩

end Statement

/-- A line that is accepted has no word, opens an assignment, or is an expression. -/
theorem AcceptedTokens.shape {tokens : List Token} (accepted : AcceptedTokens tokens) :
    tokens = [] ∨ opensAssignment tokens = true ∨ Alternates tokens := by
  obtain ⟨line, statement, read, rfl⟩ := accepted
  rcases Statement.ofLine_outcome line with comment | ⟨_, _, _, assignment⟩ | ⟨_, expression⟩ | ⟨_, refused, -⟩
  · exact Or.inl (Statement.tokens_of_isComment (Statement.ofLine_eq_comment_iff.mp comment).1)
  · exact Or.inr (Or.inl (Statement.opens_of_assignment assignment))
  · obtain ⟨-, first, operand, rest, links, whole, isOperand, written, -⟩ := Statement.tokens_of_expression expression
    rw [whole]
    exact Or.inr (Or.inr (written.alternates isOperand))
  · cases read.symm.trans refused

theorem Scan.opensAssignment_iff_kinds {tokens : List Token} :
    opensAssignment tokens = true ↔ (tokens.map Token.kind).take 2 = [.ident, .assign] := by
  rcases tokens with _ | ⟨name, _ | ⟨sign, rest⟩⟩ <;> simp [opensAssignment]

/-- No accepted line begins with words of these kinds, where the last does not fit its place and
    they open no assignment. -/
theorem AcceptedTokens.not_begins {whole front rest : List Token} {next : Token} (accepted : AcceptedTokens whole)
    (closed : opensAssignment (front ++ next :: rest) = false) (misfit : ¬ next.kind.Fits front.length) :
    ¬ (front ++ [next]).map Token.kind <+: whole.map Token.kind := by
  rintro ⟨behind, same⟩
  have place : (whole.map Token.kind)[front.length]? = some next.kind := by
    rw [← same]
    simp
  rcases accepted.shape with rfl | opens | alternates
  · simp at place
  · have kinds := opensAssignment_iff_kinds.mp opens
    rw [← same] at kinds
    have apart := mt opensAssignment_iff_kinds.mpr (Bool.eq_false_iff.mp closed)
    rcases front with _ | ⟨first, _ | ⟨second, front⟩⟩
    · have isName : next.kind = .ident := by simpa using congrArg List.head? kinds
      exact misfit (Or.inr isName)
    · exact apart (by simpa using kinds)
    · exact apart (by simpa using kinds)
  · rw [List.getElem?_map] at place
    obtain ⟨token, found, kind⟩ := Option.map_eq_some_iff.mp place
    exact misfit (kind ▸ alternates.fits _ _ found)

theorem AcceptedTokens.kinds_ne {whole words : List Token} (accepted : AcceptedTokens whole)
    (closed : opensAssignment words = false) (nonempty : words ≠ []) (even : words.length % 2 = 0) :
    whole.map Token.kind ≠ words.map Token.kind := by
  intro same
  rcases accepted.shape with rfl | opens | alternates
  · exact nonempty (List.map_eq_nil_iff.mp same.symm)
  · have kinds := opensAssignment_iff_kinds.mp opens
    rw [same, ← opensAssignment_iff_kinds, closed] at kinds
    cases kinds
  · have lengths := congrArg List.length same
    have odd := alternates.odd
    rw [List.length_map, List.length_map] at lengths
    omega

end LineCalc
