import LineCalc.Proofs.Continuation

/-!
Where the fault of a malformed line is. Reading gets stuck at one token behind those it has read
(`Statement.blames_of_ofTokens`). What has been read begins a line that is accepted
(`Blames.begun`), and the token does not fit its place (`Blames.misfit`); so the column of the
fault is that of the first word with which no accepted line begins, or of the end
(`Statement.ofLine_firstFault`).
-/
namespace LineCalc
open Scan

/-! ## Where reading gets stuck -/

/-- A token where reading gets stuck: an operand is needed there, or no operand may stand there, or
    the tokens must go on and do not. -/
inductive Blames : List Token → Token → SyntaxFault → Prop
  | start {next : Token} : Operand.ofToken? next = none → Blames [] next .unrecognized
  | operand {first next : Token} {operand : Operand} {front : List Token} {links : List Expr.Link} :
      Operand.ofToken? first = some operand → Expr.Written front links → Expr.isOperator next.kind = false →
      next.kind ≠ .eof → Blames (first :: front) next (.unexpected next.lexeme next.column)
  | operator {first sign next : Token} {operand : Operand} {front : List Token} {links : List Expr.Link} :
      Operand.ofToken? first = some operand → Expr.Written front links → Expr.isOperator sign.kind = true →
      Operand.ofToken? next = none → Blames (first :: (front ++ [sign])) next
        (if next.kind = .eof then .missingOperand sign.lexeme else .unexpected next.lexeme next.column)

namespace Expr

theorem not_isOperator_of_continueTokens {part : Partial} {tokens rest : List Token} {tree : Expr} {last : Token}
    (read : continueTokens part tokens = ⟨.ok tree, last :: rest⟩) : isOperator last.kind = false := by
  fun_induction continueTokens part tokens with
  | case1 | case2 | case5 | case6 => cases read
  | case3 part token notOperator | case7 part token next rest notOperator =>
    cases read
    simpa using notOperator
  | case4 part sign word rest operator operand isOperand ih => exact ih read

/-- Reading on gets stuck behind an operator. -/
theorem stuck_of_continueTokens {part : Partial} {tokens left : List Token} {error : LineError}
    (failed : continueTokens part tokens = ⟨.error (.line error), left⟩) :
    ∃ front links sign next rest, tokens = front ++ sign :: next :: rest ∧ Written front links ∧
      isOperator sign.kind = true ∧ Operand.ofToken? next = none ∧
      error = .malformed (if next.kind = .eof then .missingOperand sign.lexeme else .unexpected next.lexeme next.column)
        next.column := by
  fun_induction continueTokens part tokens with
  | case1 | case2 | case3 | case7 => cases failed
  | case4 part sign word rest operator operand isOperand ih =>
    obtain ⟨front, links, other, next, rest, rfl, written, stuck⟩ := ih failed
    exact ⟨sign :: word :: front, _, other, next, rest, rfl, .cons operator isOperand written, stuck⟩
  | case5 part sign next rest operator isOperand ends =>
    cases failed
    exact ⟨[], [], sign, next, rest, rfl, .nil, operator, isOperand, by rw [if_pos ends]⟩
  | case6 part sign next rest operator isOperand differs =>
    cases failed
    exact ⟨[], [], sign, next, rest, rfl, .nil, operator, isOperand, by rw [if_neg differs]⟩

end Expr

/-- Tokens that open no assignment and have a fault have it where reading gets stuck. -/
theorem Statement.blames_of_ofTokens {line : Text} {tokens : List Token} {error : LineError}
    (closed : opensAssignment tokens = false) (failed : (ofTokens line tokens).outcome = .error (.line error)) :
    ∃ front next rest fault, tokens = front ++ next :: rest ∧ Blames front next fault ∧
      error = .malformed fault next.column := by
  cases tokens with
  | nil => cases failed
  | cons first tokens =>
    rw [ofTokens_of_not_opensAssignment closed] at failed
    split at failed
    next operand isOperand =>
      unfold readExpression at failed
      split at failed
      next failure left stuck =>
        cases failed
        obtain ⟨front, links, sign, next, rest, rfl, written, operator, missing, rfl⟩ := Expr.stuck_of_continueTokens stuck
        exact ⟨first :: (front ++ [sign]), next, rest, _, by simp, .operator isOperand written operator missing, rfl⟩
      next => cases failed
      next tree last rest read =>
        split at failed
        next => cases failed
        next differs =>
          cases failed
          obtain ⟨front, links, rfl, written, -⟩ := Expr.written_of_continueTokens read
          have notOperator := Expr.not_isOperator_of_continueTokens read
          exact ⟨first :: front, last, rest, _, rfl, .operand isOperand written notOperator differs, rfl⟩
    next missing =>
      cases failed
      exact ⟨[], first, tokens, _, rfl, .start missing, rfl⟩

/-- The token where reading gets stuck does not fit its place. -/
theorem Blames.misfit {front : List Token} {next : Token} {fault : SyntaxFault} (blames : Blames front next fault) :
    ¬ next.kind.Fits front.length := by
  cases blames with
  | start missing => exact Operand.ofToken?_eq_none_iff.mp missing
  | operand isOperand written notOperator =>
    have odd := (written.alternates isOperand).odd
    rw [TokenKind.Fits, odd, if_neg Nat.one_ne_zero, notOperator]
    exact Bool.false_ne_true
  | @operator first sign _ operand front links isOperand written _ missing =>
    have odd := (written.alternates isOperand).odd
    have even : (first :: (front ++ [sign])).length % 2 = 0 := by
      simp only [List.length_cons, List.length_append, List.length_nil] at odd ⊢
      omega
    rw [TokenKind.Fits, even, if_pos rfl]
    exact Operand.ofToken?_eq_none_iff.mp missing

/-- A line that can be scanned and is accepted begins with the tokens in front of a fault, in the
    same places. -/
theorem Blames.begun {front behind : List Token} {next : Token} {fault : SyntaxFault} (blames : Blames front next fault)
    {line : Text} (reads : Reads 0 line (front ++ behind)) : ∃ other statement rest,
      Statement.ofLine other = .ok statement ∧ tokenize none other = .ok (front ++ rest) := by
  obtain ⟨before, after, rfl, readsFront⟩ := reads.front
  cases blames with
  | start =>
    have scanned := tokenize_of_reads (reads_zero 0)
    exact ⟨['0'], _, _, Statement.ofLine_of_written (reads_zero 0) rfl .nil, scanned⟩
  | operand isOperand written =>
    exact ⟨before, _, _, Statement.ofLine_of_written readsFront isOperand written, tokenize_of_reads readsFront⟩
  | @operator first sign next operand front links isOperand written operator =>
    -- A zero behind a space completes the last operation.
    have whole := readsFront.append (.gap (c := ' ') rfl (reads_zero _)) (by rintro c ⟨⟩; rfl)
    have scanned := tokenize_of_reads whole
    rw [List.append_assoc] at scanned
    rw [List.cons_append, List.append_assoc] at whole
    exact ⟨_, _, _, Statement.ofLine_of_written whole isOperand (written.append_link operator rfl), scanned⟩

/-! ## The column of a fault -/

namespace Scan

/-- The count of the words that begin before a column. -/
def countBefore (column : Int) (words : List Token) : Nat := words.countP fun word => word.column < column

theorem Placed.countBefore_eq {position : Nat} {text : Text} {front rest : List Token} {next : Token}
    (placed : Placed position text (front ++ next :: rest)) :
    countBefore next.column (front ++ next :: rest) = front.length := by
  obtain ⟨-, behind, apart⟩ := List.pairwise_append.mp placed.ordered
  have before : ∀ word ∈ front, word.column < next.column := fun word member =>
    Int.lt_of_lt_of_le (placed.stands word (List.mem_append_left _ member)).bounds.2 (apart word member next List.mem_cons_self)
  have after : ∀ word ∈ next :: rest, ¬ word.column < next.column := by
    intro word member
    rcases List.mem_cons.mp member with rfl | later
    · exact Int.lt_irrefl _
    · have ordered := (List.pairwise_cons.mp behind).1 word later
      have wide := (placed.stands next (by simp)).bounds.2
      omega
  rw [countBefore, List.countP_append, List.countP_eq_length.mpr (by simpa using before),
    List.countP_eq_zero.mpr (by simpa using after), Nat.add_zero]

theorem countBefore_all {column : Int} {words : List Token} (before : ∀ word ∈ words, word.column < column) :
    countBefore column words = words.length :=
  List.countP_eq_length.mpr (by simpa using before)

end Scan

theorem Token.StandsIn.endColumn_le {token : Token} {position : Nat} {text : Text} (stands : token.StandsIn position text) :
    token.endColumn ≤ (position + text.length : Nat) + 1 := by
  obtain ⟨before, after, rfl, column, -⟩ := stands
  simp only [Token.endColumn, column, List.length_append]
  omega

theorem SyntaxFault.words_apart {said words rest : Text} (apart : ¬ (said <+: words ∨ words <+: said)) :
    ¬ said <+: words ++ rest :=
  fun begins => apart (List.prefix_or_prefix_of_prefix begins ⟨rest, rfl⟩)

theorem SyntaxFault.exists_unexpected {fault : SyntaxFault} (said : "unexpected ".toList <+: fault.message) :
    ∃ lexeme column, fault = .unexpected lexeme column := by
  cases fault with
  | unexpected lexeme column => exact ⟨lexeme, column, rfl⟩
  | unrecognized => exact absurd said (by decide +kernel)
  | missingValue => exact absurd said (by decide +kernel)
  | missingOperand after => exact absurd said (words_apart (by decide +kernel))

theorem SyntaxFault.exists_missingOperand {fault : SyntaxFault} (said : "missing operand ".toList <+: fault.message) :
    ∃ after, fault = .missingOperand after := by
  cases fault with
  | missingOperand after => exact ⟨after, rfl⟩
  | unrecognized => exact absurd said (by decide +kernel)
  | missingValue =>
    have words : "missing operand ".toList <+: "missing value after ':='".toList := said
    exact absurd words (by decide +kernel)
  | unexpected lexeme column =>
    have words : "missing operand ".toList <+:
        "unexpected ".toList ++ inQuotes lexeme ++ " at column ".toList ++ Numeral.print column := said
    rw [List.append_assoc, List.append_assoc] at words
    exact absurd words (words_apart (by decide +kernel))

/-- The words in front of the fault begin a line that can be scanned and is accepted; with the word
    at the fault there is no such line, whatever the names and numbers are. A message about a word
    that is not expected quotes this word, one about a missing operand the last word. -/
structure FirstFault (line : Text) (words : List Token) (last : Token) (fault : SyntaxFault) (column : Int) : Prop where
  within : 1 ≤ column ∧ column ≤ line.length + 1
  begun : ∃ other statement rest, Statement.ofLine other = .ok statement ∧
    tokenize none other = .ok (words.take (countBefore column words) ++ rest)
  impossible : (∃ word ∈ words, word.column = column) → ∀ whole, AcceptedTokens whole →
    ¬ (words.take (countBefore column words + 1)).map Token.kind <+: whole.map Token.kind
  unfinished : (∀ word ∈ words, word.column ≠ column) → column = last.column ∧ ∀ whole, AcceptedTokens whole →
    whole.map Token.kind ≠ (words.take (countBefore column words)).map Token.kind
  unexpected : "unexpected ".toList <+: fault.message → ∃ word ∈ words, word.column = column ∧
    fault.message = "unexpected ".toList ++ inQuotes word.lexeme ++ " at column ".toList ++ Numeral.print column
  missing : "missing operand ".toList <+: fault.message → ∃ word, words.getLast? = some word ∧
    fault.message = "missing operand after ".toList ++ inQuotes word.lexeme

theorem Blames.at_word {front : List Token} {next : Token} {fault : SyntaxFault} (blames : Blames front next fault)
    (differs : next.kind ≠ .eof) : fault = .unrecognized ∨ fault = .unexpected next.lexeme next.column := by
  cases blames with
  | start => exact Or.inl rfl
  | operand => exact Or.inr rfl
  | operator => exact Or.inr (if_neg differs)

theorem Blames.at_end {front : List Token} {next : Token} {fault : SyntaxFault} (blames : Blames front next fault)
    (ends : next.kind = .eof) : front = [] ∨
      front.length % 2 = 0 ∧ ∃ sign, front.getLast? = some sign ∧ fault = .missingOperand sign.lexeme := by
  cases blames with
  | start => exact Or.inl rfl
  | operand _ _ _ differs => exact absurd ends differs
  | @operator first sign _ operand front links isOperand written _ missing =>
    have odd := (written.alternates isOperand).odd
    refine Or.inr ⟨?_, sign, by rw [← List.cons_append, List.getLast?_concat], if_pos ends⟩
    simp only [List.length_cons, List.length_append, List.length_nil] at odd ⊢
    omega

theorem Blames.firstFault_word {line : Text} {front rest : List Token} {next last : Token} {fault : SyntaxFault}
    (blames : Blames front next fault) (placed : Placed 0 line (front ++ next :: rest)) (differs : next.kind ≠ .eof)
    (closed : opensAssignment (front ++ next :: rest) = false) :
    FirstFault line (front ++ next :: rest) last fault next.column := by
  have stands := placed.stands next (by simp)
  have inside : next ∈ front ++ next :: rest := by simp
  have count := placed.countBefore_eq
  have whole : front ++ next :: rest = (front ++ [next]) ++ rest := by simp
  constructor
  · have bounds := stands.bounds
    have ends := stands.endColumn_le
    omega
  · rw [count, List.take_left]
    exact blames.begun (placed.reads)
  · intro _ other accepted
    have taken : (front ++ next :: rest).take (front.length + 1) = front ++ [next] := by
      have size : (front ++ [next]).length = front.length + 1 := by simp
      rw [whole, ← size, List.take_left]
    rw [count, taken]
    exact accepted.not_begins closed blames.misfit
  · exact fun elsewhere => absurd rfl (elsewhere next inside)
  · intro said
    obtain ⟨lexeme, column, rfl⟩ := SyntaxFault.exists_unexpected said
    rcases blames.at_word differs with other | same
    · cases other
    · cases same
      exact ⟨next, inside, rfl, rfl⟩
  · intro said
    obtain ⟨after, rfl⟩ := SyntaxFault.exists_missingOperand said
    rcases blames.at_word differs with other | other <;> cases other

theorem Blames.firstFault_end {line : Text} {words : List Token} {fault : SyntaxFault}
    (blames : Blames words (Token.atEnd (line.length + 1)) fault) (placed : Placed 0 line words)
    (wordy : Statement.isComment line = false) (closed : opensAssignment words = false) :
    FirstFault line words (Token.atEnd (line.length + 1)) fault (line.length + 1) := by
  have reads := placed.reads
  have before : ∀ word ∈ words, word.column < (line.length + 1 : Int) := by
    intro word member
    have bounds := (placed.stands word member).bounds
    have ends := (placed.stands word member).endColumn_le
    omega
  have count := countBefore_all before
  have nonempty : words ≠ [] := by
    rintro rfl
    rw [Statement.isComment_of_isGap (Spells.nil_iff.mp reads.spells)] at wordy
    cases wordy
  obtain ⟨even, sign, isLast, said⟩ := (blames.at_end rfl).resolve_left nonempty
  subst said
  constructor
  · omega
  · rw [count, List.take_length]
    have whole : Reads 0 line (words ++ []) := by rwa [List.append_nil]
    exact blames.begun whole
  · rintro ⟨word, member, same⟩
    exact absurd same (Int.ne_of_lt (before word member))
  · intro _
    refine ⟨rfl, fun whole accepted => ?_⟩
    rw [count, List.take_length]
    exact accepted.kinds_ne closed nonempty even
  · intro said
    obtain ⟨lexeme, column, other⟩ := SyntaxFault.exists_unexpected said
    cases other
  · exact fun _ => ⟨sign, isLast, rfl⟩

/-- A line that can be scanned, opens no assignment and is not accepted has its fault at the
    first word that cannot follow on those in front of it, or behind the last word. -/
theorem Statement.ofLine_firstFault {line : Text} {words : List Token} {last : Token} {failure : Failure}
    (scanned : tokenize none line = .ok (words ++ [last])) (closed : opensAssignment words = false)
    (failed : ofLine line = .error failure) :
    ∃ fault column, failure = .line (.malformed fault column) ∧ FirstFault line words last fault column := by
  obtain ⟨found, whole, differ, placed⟩ := tokenize_iff_tokenizes.mp scanned
  obtain ⟨rfl, same⟩ := List.append_inj' whole rfl
  obtain rfl := List.singleton_inj.mp same
  have wordy : isComment line = false := by
    rw [ofLine] at failed
    split at failed
    next => cases failed
    next plain => simpa using plain
  have hasEnd : HasEnd (words ++ [Token.atEnd (line.length + 1)]) :=
    ⟨_, List.mem_append_right _ (List.mem_singleton_self _), rfl⟩
  have stays := (opensAssignment_atEnd words (line.length + 1)).trans closed
  rw [ofLine_of_tokens wordy scanned] at failed
  obtain ⟨tree, read⟩ | ⟨fault, column, -, malformed⟩ := ofTokens_of_closed hasEnd stays line
  · cases failed.symm.trans read
  cases failed.symm.trans malformed
  obtain ⟨front, next, rest, blamed, split, blames, same⟩ := blames_of_ofTokens stays malformed
  cases same
  refine ⟨fault, _, rfl, ?_⟩
  rcases List.eq_nil_or_concat rest with rfl | ⟨rest, other, rfl⟩
  · obtain ⟨rfl, same⟩ := List.append_inj' split rfl
    obtain rfl := List.singleton_inj.mp same
    exact blames.firstFault_end placed wordy closed
  · have parts : words ++ [Token.atEnd (line.length + 1)] = (front ++ next :: rest) ++ [other] := by simpa using split
    obtain ⟨rfl, -⟩ := List.append_inj' parts rfl
    exact blames.firstFault_word placed (differ next (by simp)) closed

theorem Statement.ofLine_firstFault_behind_operand :
    tokenize none "2 + 3 x * 4".toList = .ok ([⟨.int, ['2'], 1⟩, ⟨.plus, ['+'], 3⟩, ⟨.int, ['3'], 5⟩, ⟨.ident, ['x'], 7⟩,
        ⟨.star, ['*'], 9⟩, ⟨.int, ['4'], 11⟩] ++ [⟨.eof, [], 12⟩]) ∧
      ofLine "2 + 3 x * 4".toList = .error (.line (.malformed (.unexpected ['x'] 7) 7)) ∧
      ∃ fault column, Failure.line (.malformed (.unexpected ['x'] 7) 7) = .line (.malformed fault column) ∧
        FirstFault "2 + 3 x * 4".toList [⟨.int, ['2'], 1⟩, ⟨.plus, ['+'], 3⟩, ⟨.int, ['3'], 5⟩, ⟨.ident, ['x'], 7⟩,
          ⟨.star, ['*'], 9⟩, ⟨.int, ['4'], 11⟩] ⟨.eof, [], 12⟩ fault column := by
  have scanned : tokenize none "2 + 3 x * 4".toList = .ok ([⟨.int, ['2'], 1⟩, ⟨.plus, ['+'], 3⟩, ⟨.int, ['3'], 5⟩,
      ⟨.ident, ['x'], 7⟩, ⟨.star, ['*'], 9⟩, ⟨.int, ['4'], 11⟩] ++ [⟨.eof, [], 12⟩]) := by decide +kernel
  have failed : ofLine "2 + 3 x * 4".toList = .error (.line (.malformed (.unexpected ['x'] 7) 7)) := by decide +kernel
  exact ⟨scanned, failed, ofLine_firstFault scanned rfl failed⟩

end LineCalc
