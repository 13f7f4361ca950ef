import LineCalc.Proofs.Account

/-!
Errors end at their line. What stops the work on a line is an error of that line and never a
mistake of a host program (`Session.executeLine_failure`), also where every operation is looked up
on the values it is applied to (`Expr.dispatch_eq`). So the loop over the lines always comes to
its end (`Session.exists_exhausts`).
-/
namespace LineCalc

namespace Expr

/-- Each operation is one of the left value. -/
def dispatch (environment : Environment) : Expr → Except Failure Value
  | leaf operand => (operand.evaluate environment).map Value.integer
  | binary operator left right => do
    let leftValue ← left.dispatch environment
    let rightValue ← right.dispatch environment
    match Operation.ofKind? operator with
    | none => .error (.noOperation operator)
    | some operation => Value.apply operation leftValue rightValue

theorem dispatch_eq (environment : Environment) (tree : Expr) :
    tree.dispatch environment = (tree.evaluate environment).map Value.integer := by
  induction tree with
  | leaf operand => rw [dispatch, evaluate_leaf]
  | binary operator left right ihl ihr =>
    rw [dispatch, ihl, ihr, evaluate_binary]
    cases left.evaluate environment with
    | error failure => rfl
    | ok leftValue =>
      cases right.evaluate environment with
      | error failure => rfl
      | ok rightValue =>
        show _ = (operator.apply leftValue rightValue).map Value.integer
        cases known : Operation.ofKind? operator with
        | none =>
          rw [TokenKind.apply, known]
          rfl
        | some operation =>
          rw [TokenKind.apply, known]
          show Value.apply operation (.integer leftValue) (.integer rightValue) = _
          rw [Value.apply]
          cases applied : operation.apply leftValue rightValue with
          | error error =>
            simp only [applied]
            rfl
          | ok value =>
            simp only [applied]
            rfl

end Expr

namespace Session

/-- What stops the work on a line is an error of the line. -/
theorem executeLine_failure {session : Session} {line : Text} {failure : Failure}
    (failed : (session.executeLine line).2 = some failure) : ∃ error, failure = .line error := by
  obtain ⟨outcome, yields⟩ := exists_yields session.environment line
  rcases executeLine_of_yields yields with ⟨error, -, executed⟩ | ⟨statement, log, -, executed⟩
  · rw [executed] at failed
    cases failed
    exact ⟨error, rfl⟩
  · rw [executed] at failed
    cases failed

/-- Working on line after line, until there is none, leads from a session to another. -/
inductive Exhausts : Session → Session → Prop
  | last {session after : Session} : session.step = .ok (false, after) → Exhausts session after
  | next {session after final : Session} : session.step = .ok (true, after) → Exhausts after final →
      Exhausts session final

theorem exists_exhausts {session : Session} (inside : session.cursor ≤ session.lines.length) :
    ∃ final, Exhausts session final ∧ advance (session.lines.length - session.cursor + 1) session = .ok final ∧
      final.phase = .done ∧ final.lines = session.lines ∧ final.cursor = final.lines.length := by
  -- The induction is on the count of lines that are left.
  induction count : session.lines.length - session.cursor generalizing session with
  | zero =>
    have ended : session.step = .ok (false, { session with phase := .done }) := step_at_end (by omega)
    refine ⟨_, .last ended, ?_, rfl, rfl, by dsimp only; omega⟩
    rw [advance, ended]
    rfl
  | succ rest ih =>
    have more : session.cursor < session.lines.length := by omega
    obtain ⟨line, outcome, log, -, -, stepped⟩ := step_inside more
    have fewer : (session.after line outcome log).lines.length - (session.after line outcome log).cursor = rest := by
      simp only [after]
      omega
    have within : (session.after line outcome log).cursor ≤ (session.after line outcome log).lines.length := more
    obtain ⟨final, loop, advanced, done⟩ := ih within fewer
    refine ⟨final, .next stepped loop, ?_, done⟩
    rw [advance, stepped]
    exact advanced

/-- A run over any source ends behind its last line, and it is done. On its way it finds each line
    by its number, and what stops the work on a line is an error of that line. -/
theorem run_recovers (verbose : Bool) (source : Text) :
    (∃ final, Exhausts (start verbose source) final ∧
      (start verbose source).run = .ok (final.note (.finished final.lines.length final.report.errors.length)) ∧
      final.phase = .done ∧ final.lines = Lines.ofText source ∧ final.cursor = final.lines.length) ∧
    (∀ index < (Lines.ofText source).length, ∃ session line, advance index (start verbose source) = .ok session ∧
      session.cursor = index ∧ Lines.line? session.lines (session.cursor + 1) = some line ∧
      (Lines.ofText source)[index]? = some line) ∧
    (∀ (session : Session) (line : Text) (failure : Failure), (session.executeLine line).2 = some failure →
      ∃ error, failure = .line error) ∧
    ∀ (line : Text) (tree : Expr) (environment : Environment) (failure : Failure),
      Statement.ofLine line = .ok (.expression tree) → tree.dispatch environment = .error failure →
        ∃ error, failure = .line error := by
  refine ⟨?_, ?_, fun session line failure => executeLine_failure, ?_⟩
  · have first : (start verbose source).cursor ≤ (start verbose source).lines.length := Nat.zero_le _
    obtain ⟨final, loop, advanced, done⟩ := exists_exhausts first
    refine ⟨final, loop, ?_, done⟩
    rw [run, advanced]
  · intro index inside
    obtain ⟨session, advanced, sameLines, cursor, -⟩ := Account.advance_start verbose (Nat.le_of_lt inside)
    have found : (Lines.ofText source)[index]? = some (Lines.ofText source)[index] := List.getElem?_eq_getElem inside
    refine ⟨session, _, advanced, cursor, ?_, found⟩
    rw [cursor, Lines.line?_succ, sameLines, found]
  · intro line tree environment failure accepted failed
    rw [Expr.dispatch_eq] at failed
    cases evaluated : tree.evaluate environment with
    | error cause =>
      rw [evaluated] at failed
      cases failed
      exact (Statement.canonical_of_expression accepted).1.evaluate_error evaluated
    | ok value =>
      rw [evaluated] at failed
      cases failed

end Session
end LineCalc
