import LineCalc.Proofs.Shortcut

/-!
Lines that assign. Only a name and an assignment sign are scanned of such a line, with gaps before
and between them (`Scan.ofStatement_assign`); the value is what stands behind the sign, without
the gaps around it (`Statement.ofLine_assign`).
-/
namespace LineCalc
open Scan

namespace Scan

theorem scanFrom_lexeme {room : Option Nat} (left : room ≠ some 0) (position : Nat) {gap lexeme after : Text}
    (isGap : IsGap gap) {kind : TokenKind} (isLexeme : kind.IsLexeme lexeme) (ends : kind.EndsBefore after) :
    scanFrom room position (gap ++ lexeme ++ after) =
      (scanFrom (room.map (· - 1)) (position + gap.length + lexeme.length) after).prepend
        ⟨kind, lexeme, (position + gap.length : Nat) + 1⟩ := by
  induction gap generalizing position with
  | nil =>
    obtain ⟨c, more, rfl, word⟩ := isLexeme.first
    exact scanFrom_token left word (Munch.ofText?_lexeme isLexeme ends)
  | cons c gap ih =>
    obtain ⟨blank, rest⟩ := isGap_cons.mp isGap
    have behind := ih (position + 1) rest
    have length : position + (c :: gap).length = position + 1 + gap.length := by
      rw [List.length_cons]
      omega
    rw [length, ← behind]
    exact scanFrom_gap left (isGap_iff.mpr blank)

/-- The first token of a scan is a word behind a gap. -/
theorem exists_lexeme {room : Option Nat} {position : Nat} {text : Text} {token : Token} {more : List Token}
    (scanned : (scanFrom room position text).tokens = token :: more) :
    ∃ gap after, text = gap ++ token.lexeme ++ after ∧ IsGap gap ∧ token.kind.IsLexeme token.lexeme ∧
      (scanFrom (room.map (· - 1)) (position + gap.length + token.lexeme.length) after).tokens = more := by
  fun_induction scanFrom room position text with
  | case1 | case2 | case5 => cases scanned
  | case3 room position c rest _ blank ih =>
    obtain ⟨gap, after, rfl, isGap, isLexeme, behind⟩ := ih scanned
    refine ⟨c :: gap, after, rfl, isGap_cons.mpr ⟨isGap_iff.mp blank, isGap⟩, isLexeme, ?_⟩
    rw [List.length_cons, Nat.add_comm gap.length, ← Nat.add_assoc]
    exact behind
  | case4 room position c rest _ _ munch found _ =>
    obtain ⟨whole, isLexeme, -⟩ := Munch.ofText?_eq_some_iff.mp found
    obtain ⟨rfl, rfl⟩ := List.cons.inj scanned
    exact ⟨[], munch.after, whole.symm, by simp [IsGap], isLexeme, rfl⟩

end Scan

section
variable {before name between : Text} (isGap : IsGap before) (isName : IsName name) (isInner : IsGap between)
include isGap isName isInner

/-- What is scanned of a line that assigns: the name and the sign, with the end behind them. -/
theorem Scan.ofStatement_assign (behind : Text) :
    ofStatement (before ++ name ++ (between ++ [':', '='] ++ behind)) =
      .ok [⟨.ident, name, (before.length : Nat) + 1⟩,
        ⟨.assign, [':', '='], (before.length + name.length + between.length : Nat) + 1⟩,
        Token.atEnd ((before.length + name.length + between.length + 2 : Nat) + 1)] := by
  have ends : TokenKind.ident.EndsBefore (between ++ [':', '='] ++ behind) := by
    intro c first
    cases between with
    | nil =>
      cases first
      decide
    | cons d gap =>
      cases first
      rcases (isGap_cons.mp isInner).1 with rfl | rfl <;> decide
  have sign : TokenKind.assign.IsLexeme [':', '='] := .symbol (by decide)
  have scanned : Scan.ofText (some 2) (before ++ name ++ (between ++ [':', '='] ++ behind)) =
      ⟨[⟨.ident, name, (before.length : Nat) + 1⟩,
        ⟨.assign, [':', '='], (before.length + name.length + between.length : Nat) + 1⟩],
        before.length + name.length + between.length + 2, none⟩ := by
    show scanFrom (some 2) 0 _ = _
    rw [scanFrom_lexeme (by decide) 0 isGap (.name isName) ends, Nat.zero_add]
    show (scanFrom (some 1) _ _).prepend _ = _
    rw [scanFrom_lexeme (by decide) _ isInner sign trivial]
    show ((scanFrom (some 0) _ _).prepend _).prepend _ = _
    rw [scanFrom_full]
    rfl
  rw [ofStatement, tokenize, result, scanned]
  rfl

omit isInner in
theorem Statement.isComment_assign (behind : Text) :
    isComment (before ++ name ++ (between ++ [':', '='] ++ behind)) = false :=
  @isComment_eq_false (.reference name) isName before _ isGap

theorem Statement.ofLine_assign (behind : Text) :
    ofLine (before ++ name ++ (between ++ [':', '='] ++ behind)) =
      let column : Int := (before.length + name.length + between.length + 2 : Nat) + 1
      if (Text.strip Text.isGap behind).isEmpty then .error (.line (.malformed .missingValue column))
      else .ok (.assignment name (Text.strip Text.isGap behind)
        (column + (behind.length - (Text.stripLeft Text.isGap behind).length : Nat))) := by
  have column : (⟨.assign, [':', '='], (before.length + name.length + between.length : Nat) + 1⟩ : Token).endColumn =
      (before.length + name.length + between.length + 2 : Nat) + 1 := by
    simp only [Token.endColumn, List.length_cons, List.length_nil]
    omega
  have rest : Text.fromIndex ((before.length + name.length + between.length + 2 : Nat) + 1 - 1 : Int)
      (before ++ name ++ (between ++ [':', '='] ++ behind)) = behind := by
    have index : ((before.length + name.length + between.length + 2 : Nat) + 1 - 1 : Int) =
        (before ++ name ++ (between ++ [':', '='])).length := by
      simp only [List.length_append, List.length_cons, List.length_nil]
      omega
    have whole : before ++ name ++ (between ++ [':', '='] ++ behind) =
        before ++ name ++ (between ++ [':', '=']) ++ behind := by
      simp only [List.append_assoc]
    rw [index, Text.fromIndex_natCast, whole, List.drop_left]
  rw [ofLine_of_ofStatement (isComment_assign isGap isName behind)
    (ofStatement_assign isGap isName isInner behind), ofTokens_of_opensAssignment rfl, readAssignment, column, rest]
  dsimp only
  split <;> rfl

end

theorem TokenKind.IsLexeme.assign {text : Text} (lexeme : TokenKind.assign.IsLexeme text) : text = [':', '='] := by
  cases lexeme with
  | symbol member =>
    rcases mem_symbols_iff.mp member with ⟨-, same⟩ | operator
    · exact same
    · cases operator

theorem Scan.opensAssignment_atEnd (tokens : List Token) (column : Int) :
    opensAssignment (tokens ++ [Token.atEnd column]) = opensAssignment tokens := by
  rcases tokens with _ | ⟨first, _ | ⟨second, rest⟩⟩
  · rfl
  · simp [opensAssignment, Token.atEnd]
  · rfl

theorem SyntaxFault.eq_missingValue {fault : SyntaxFault} (said : fault.message = "missing value after ':='".toList) :
    fault = .missingValue := by
  cases fault with
  | missingValue => rfl
  | unrecognized => exact absurd said (by decide +kernel)
  | missingOperand after =>
    have words : "missing operand after ".toList <+: "missing value after ':='".toList := ⟨_, said⟩
    exact absurd words (by decide +kernel)
  | unexpected lexeme column =>
    have words : "unexpected ".toList <+: "missing value after ':='".toList :=
      ⟨_, (List.append_assoc _ _ _).symm.trans said⟩
    exact absurd words (by decide +kernel)

namespace Statement

/-- A line that opens an assignment holds a name and a sign behind gaps. -/
theorem exists_assign_of_opens {line : Text} (opens : opensAssignment (Scan.ofText none line).tokens = true) :
    ∃ before name between behind, line = before ++ name ++ (between ++ [':', '='] ++ behind) ∧
      IsGap before ∧ IsName name ∧ IsGap between := by
  obtain ⟨first, ⟨kind, lexeme, place⟩, rest, _, whole, isName, rfl, -⟩ := tokenize_of_opens opens
  obtain ⟨before, after, text, isGap, firstLexeme, behind⟩ := exists_lexeme whole
  obtain ⟨between, behind, afterText, isInner, signLexeme, -⟩ := exists_lexeme behind
  have proper : IsName first.lexeme :=
    (Operand.proper_of_token firstLexeme (Operand.ofToken?_eq_some_iff.mpr (Or.inr ⟨isName, rfl⟩))).1
  rw [afterText, signLexeme.assign] at text
  exact ⟨before, first.lexeme, between, behind, text, isGap, proper, isInner⟩

/-- A line that opens no assignment is none, and no value is missing in it. -/
theorem ofLine_of_closed {line : Text} (closed : opensAssignment (Scan.ofText none line).tokens = false) :
    (∃ statement, ofLine line = .ok statement ∧ ∀ name value column, statement ≠ .assignment name value column) ∨
      ∃ error, ofLine line = .error (.line error) ∧ (error.kind = .syntactic →
        ∃ fault column, fault ≠ .missingValue ∧ error = .malformed fault column) := by
  rw [ofLine, ofStatement_eq, closed, if_neg Bool.false_ne_true]
  split
  · exact Or.inl ⟨_, rfl, by simp⟩
  · rcases tokenize_outcome none line with ⟨tokens, scanned, ends⟩ | ⟨character, column, refused⟩
    · obtain ⟨-, last, rfl⟩ := tokenize_eq_ok scanned
      rw [scanned]
      rw [← opensAssignment_atEnd _ last] at closed
      rcases ofTokens_of_closed ends closed line with ⟨tree, read⟩ | ⟨fault, column, other, malformed⟩
      · exact Or.inl ⟨_, read, by simp⟩
      · exact Or.inr ⟨_, malformed, fun _ => ⟨fault, column, other, rfl⟩⟩
    · rw [refused]
      exact Or.inr ⟨_, rfl, by rintro ⟨⟩⟩

theorem opens_of_assignment {line name value : Text} {column : Int}
    (accepted : ofLine line = .ok (.assignment name value column)) :
    opensAssignment (Scan.ofText none line).tokens = true := by
  refine eq_true_of_ne_false fun closed => ?_
  rcases ofLine_of_closed closed with ⟨statement, read, other⟩ | ⟨error, failed, -⟩
  · cases accepted.symm.trans read
    exact absurd rfl (other name value column)
  · cases accepted.symm.trans failed

theorem opens_of_missingValue {line : Text} {error : LineError} (failed : ofLine line = .error (.line error))
    (kind : error.kind = .syntactic) (message : error.message = "missing value after ':='".toList) :
    opensAssignment (Scan.ofText none line).tokens = true := by
  refine eq_true_of_ne_false fun closed => ?_
  rcases ofLine_of_closed closed with ⟨statement, read, -⟩ | ⟨other, found, faults⟩
  · cases failed.symm.trans read
  · cases failed.symm.trans found
    obtain ⟨fault, _, differs, rfl⟩ := faults kind
    exact absurd (SyntaxFault.eq_missingValue message) differs

theorem exists_assign {line name value : Text} {column : Int}
    (accepted : ofLine line = .ok (.assignment name value column)) :
    ∃ before between behind, line = before ++ name ++ (between ++ [':', '='] ++ behind) ∧
      IsGap before ∧ IsName name ∧ IsGap between := by
  obtain ⟨before, found, between, behind, rfl, isGap, isName, isInner⟩ :=
    exists_assign_of_opens (opens_of_assignment accepted)
  rw [ofLine_assign isGap isName isInner] at accepted
  split at accepted
  · cases accepted
  · cases accepted
    exact ⟨before, between, behind, rfl, isGap, isName, isInner⟩

theorem isGap_iff_strip {gap : Text} : IsGap gap ↔ Text.strip Text.isGap gap = [] := by
  simp only [Text.strip_eq_nil_iff, isGap_iff, IsGap]

theorem value_or_gap_of_opens {line : Text} (opens : opensAssignment (Scan.ofText none line).tokens = true) :
    (∃ before name between left value right,
      line = before ++ name ++ between ++ [':', '='] ++ left ++ value ++ right ∧ IsGap before ∧ IsName name ∧
        IsGap between ∧ IsGap left ∧ IsGap right ∧ Text.Stripped Text.isGap value) ∨
      ∃ before name between behind, line = before ++ name ++ between ++ [':', '='] ++ behind ∧ IsGap before ∧
        IsName name ∧ IsGap between ∧ IsGap behind := by
  obtain ⟨before, name, between, behind, rfl, isGap, isName, isInner⟩ := exists_assign_of_opens opens
  by_cases isBehind : IsGap behind
  · exact Or.inr ⟨before, name, between, behind, by simp only [List.append_assoc], isGap, isName, isInner, isBehind⟩
  · obtain ⟨left, right, whole, inLeft, inRight, stripped⟩ := Text.exists_strip (mt isGap_iff_strip.mpr isBehind)
    refine Or.inl ⟨before, name, between, left, _, right, ?_, isGap, isName, isInner,
      fun c member => isGap_iff.mp (inLeft c member), fun c member => isGap_iff.mp (inRight c member), stripped⟩
    rw [List.append_assoc _ left, List.append_assoc _ (left ++ _), ← whole]
    simp only [List.append_assoc]

section
variable {before name between : Text} (isGap : IsGap before) (isName : IsName name) (isInner : IsGap between)
include isGap isName isInner

theorem ofLine_assign_value {left value right : Text} (isLeft : IsGap left) (isRight : IsGap right)
    (stripped : Text.Stripped Text.isGap value) :
    ofLine (before ++ name ++ between ++ [':', '='] ++ left ++ value ++ right) =
      .ok (.assignment name value (1 + before.length + name.length + between.length + 2 + left.length)) := by
  have inLeft : ∀ c ∈ left, Text.isGap c = true := fun c member => isGap_iff.mpr (isLeft c member)
  have inRight : ∀ c ∈ right, Text.isGap c = true := fun c member => isGap_iff.mpr (isRight c member)
  have kept : Text.strip Text.isGap (left ++ value ++ right) = value := Text.strip_append inLeft stripped inRight
  have rest : Text.stripLeft Text.isGap (left ++ value ++ right) = value ++ right := Text.stripLeft_append inLeft stripped right
  have nonempty : value.isEmpty = false := by
    obtain ⟨⟨c, first, -⟩, -⟩ := stripped
    cases value with
    | nil => cases first
    | cons => rfl
  have skipped : (left ++ value ++ right).length - (value ++ right).length = left.length := by
    simp only [List.length_append]
    omega
  have spelled : before ++ name ++ between ++ [':', '='] ++ left ++ value ++ right =
      before ++ name ++ (between ++ [':', '='] ++ (left ++ value ++ right)) := by
    simp only [List.append_assoc]
  rw [spelled, ofLine_assign isGap isName isInner, kept, rest, nonempty, if_neg Bool.false_ne_true, skipped]
  simp only [Except.ok.injEq, assignment.injEq, true_and]
  omega

theorem ofLine_assign_gap {behind : Text} (isBehind : IsGap behind) :
    ofLine (before ++ name ++ between ++ [':', '='] ++ behind) =
      .error (.line (.malformed .missingValue (1 + before.length + name.length + between.length + 2))) := by
  have spelled : before ++ name ++ between ++ [':', '='] ++ behind =
      before ++ name ++ (between ++ [':', '='] ++ behind) := by
    simp only [List.append_assoc]
  rw [spelled, ofLine_assign isGap isName isInner, isGap_iff_strip.mp isBehind]
  simp only [List.isEmpty_nil, if_true, Except.error.injEq, Failure.line.injEq, LineError.malformed.injEq, true_and]
  omega

end

/-- The lines that are read as an assignment are those with a name, a sign and a value, with gaps
    before, between and behind them; the column of the value is the place where it begins. Where
    there is no value, and only there, the line has a syntax fault that says so, right behind the
    sign. -/
theorem ofLine_eq_assignment_iff (line : Text) :
    (∀ name value column, ofLine line = .ok (.assignment name value column) ↔
      ∃ before between left right, line = before ++ name ++ between ++ [':', '='] ++ left ++ value ++ right ∧
        IsGap before ∧ IsName name ∧ IsGap between ∧ IsGap left ∧ IsGap right ∧ Text.Stripped Text.isGap value ∧
        column = 1 + before.length + name.length + between.length + 2 + left.length) ∧
    ∀ column, (∃ error : LineError, ofLine line = .error (.line error) ∧ error.kind = .syntactic ∧
        error.message = "missing value after ':='".toList ∧ error.column = some column) ↔
      ∃ before name between behind, line = before ++ name ++ between ++ [':', '='] ++ behind ∧
        IsGap before ∧ IsName name ∧ IsGap between ∧ IsGap behind ∧
        column = 1 + before.length + name.length + between.length + 2 := by
  refine ⟨fun name value column => ⟨fun accepted => ?_, ?_⟩, fun column => ⟨?_, ?_⟩⟩
  · rcases value_or_gap_of_opens (opens_of_assignment accepted) with
      ⟨before, _, between, left, _, right, rfl, isGap, isName, isInner, isLeft, isRight, stripped⟩ |
        ⟨before, _, between, behind, rfl, isGap, isName, isInner, isBehind⟩
    · cases accepted.symm.trans (ofLine_assign_value isGap isName isInner isLeft isRight stripped)
      exact ⟨before, between, left, right, rfl, isGap, isName, isInner, isLeft, isRight, stripped, rfl⟩
    · cases accepted.symm.trans (ofLine_assign_gap isGap isName isInner isBehind)
  · rintro ⟨before, between, left, right, rfl, isGap, isName, isInner, isLeft, isRight, stripped, rfl⟩
    exact ofLine_assign_value isGap isName isInner isLeft isRight stripped
  · rintro ⟨error, failed, kind, message, place⟩
    rcases value_or_gap_of_opens (opens_of_missingValue failed kind message) with
      ⟨before, name, between, left, value, right, rfl, isGap, isName, isInner, isLeft, isRight, stripped⟩ |
        ⟨before, name, between, behind, rfl, isGap, isName, isInner, isBehind⟩
    · cases failed.symm.trans (ofLine_assign_value isGap isName isInner isLeft isRight stripped)
    · cases failed.symm.trans (ofLine_assign_gap isGap isName isInner isBehind)
      cases place
      exact ⟨before, name, between, behind, rfl, isGap, isName, isInner, isBehind, rfl⟩
  · rintro ⟨before, name, between, behind, rfl, isGap, isName, isInner, isBehind, rfl⟩
    exact ⟨_, ofLine_assign_gap isGap isName isInner isBehind, rfl, rfl, rfl⟩

end Statement
end LineCalc
