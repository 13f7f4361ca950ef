import LineCalc.Proofs.Execution
import LineCalc.Proofs.Rejection

/-!
What one step of a session does. A line has one outcome in an environment (`Yields`), and a step
adds what it binds and tells (`Session.step_of_yields`). As every line has an outcome
(`exists_yields`), no step fails, and a run gets behind its last line with everything that no line
changes (`Session.run_to_end`).
-/
namespace LineCalc
open Numeral

/-- The outcome of a line in an environment. The value of an assignment has to be a numeral before
    it matters whether the name is bound. -/
inductive Yields (environment : Environment) (line : Text) : Outcome → Prop
  | comment : Statement.ofLine line = .ok (.comment line) → Yields environment line .passed
  | rejected {error : LineError} : Statement.ofLine line = .error (.line error) → Yields environment line (.failed error)
  | noNumeral {name valueText : Text} {column : Int} :
      Statement.ofLine line = .ok (.assignment name valueText column) → ¬ IsNumeral valueText →
      Yields environment line (.failed (.badNumeral valueText))
  | redefinition {name valueText : Text} {column existing : Int} :
      Statement.ofLine line = .ok (.assignment name valueText column) → IsNumeral valueText →
      environment.lookup? name = some existing → Yields environment line (.failed (.redefinition name existing))
  | binding {name valueText : Text} {column : Int} :
      Statement.ofLine line = .ok (.assignment name valueText column) → IsNumeral valueText →
      environment.lookup? name = none → Yields environment line (.bound name (integerOf valueText))
  | value {tree : Expr} {value : Int} :
      Statement.ofLine line = .ok (.expression tree) → tree.evaluate environment = .ok value →
      Yields environment line (.valued value)
  | noValue {tree : Expr} {error : LineError} :
      Statement.ofLine line = .ok (.expression tree) → tree.evaluate environment = .error (.line error) →
      Yields environment line (.failed error)

theorem Yields.of_statement {environment : Environment} {line : Text} {outcome : Outcome}
    (yields : Yields environment line outcome) :
    (∃ error, Statement.ofLine line = .error (.line error) ∧ outcome = .failed error) ∨
    ∃ statement, Statement.ofLine line = .ok statement ∧ (statement.outcome environment = .ok outcome ∨
      ∃ error, statement.outcome environment = .error (.line error) ∧ outcome = .failed error) := by
  cases yields with
  | rejected rejected => exact .inl ⟨_, rejected, rfl⟩
  | comment accepted => exact .inr ⟨_, accepted, .inl rfl⟩
  | noNumeral accepted numeral =>
    refine .inr ⟨_, accepted, .inr ⟨_, ?_, rfl⟩⟩
    simp only [Statement.outcome, read_eq_error_iff.mpr ⟨numeral, rfl⟩]
  | redefinition accepted numeral bound =>
    refine .inr ⟨_, accepted, .inr ⟨_, ?_, rfl⟩⟩
    simp only [Statement.outcome, read_eq_ok_iff.mpr ⟨numeral, rfl⟩, Environment.define_of_bound bound]
  | binding accepted numeral unbound =>
    refine .inr ⟨_, accepted, .inl ?_⟩
    simp only [Statement.outcome, read_eq_ok_iff.mpr ⟨numeral, rfl⟩, Environment.define_of_unbound unbound]
  | value accepted evaluated =>
    refine .inr ⟨_, accepted, .inl ?_⟩
    rw [Statement.outcome, evaluated]
    rfl
  | noValue accepted evaluated =>
    refine .inr ⟨_, accepted, .inr ⟨_, ?_, rfl⟩⟩
    rw [Statement.outcome, evaluated]
    rfl

theorem Statement.isOfValue_of_expression {line : Text} {tree : Expr} (accepted : ofLine line = .ok (.expression tree))
    {environment : Environment} {error : LineError} (evaluated : tree.evaluate environment = .error (.line error)) :
    error.IsOfValue := by
  obtain ⟨canonical, -⟩ := canonical_of_expression accepted
  obtain ⟨_, cause, ofValue⟩ := canonical.evaluate_cause evaluated
  cases cause
  exact ofValue

/-- Every line has an outcome. -/
theorem exists_yields (environment : Environment) (line : Text) : ∃ outcome, Yields environment line outcome := by
  rcases Statement.ofLine_outcome line with comment | ⟨name, valueText, column, assignment⟩ | ⟨tree, accepted⟩ |
    ⟨error, rejected, -⟩
  · exact ⟨_, .comment comment⟩
  · by_cases numeral : IsNumeral valueText
    · cases bound : environment.lookup? name with
      | none => exact ⟨_, .binding assignment numeral bound⟩
      | some existing => exact ⟨_, .redefinition assignment numeral bound⟩
    · exact ⟨_, .noNumeral assignment numeral⟩
  · have canonical := (Statement.canonical_of_expression accepted).1
    cases evaluated : tree.evaluate environment with
    | ok value => exact ⟨_, .value accepted evaluated⟩
    | error failure =>
      obtain ⟨error, rfl⟩ := canonical.evaluate_error evaluated
      exact ⟨_, .noValue accepted evaluated⟩
  · exact ⟨_, .rejected rejected⟩

namespace Session

/-- A line that is no statement leaves the phase as it is. -/
def phaseOf (session : Session) (line : Text) : Phase :=
  match Statement.ofLine line with
  | .ok (.comment _) => .comment
  | .ok (.assignment _ _ _) => .assigning
  | .ok (.expression _) => .evaluating
  | _ => session.phase

/-- The session behind a line with an outcome. -/
def after (session : Session) (line : Text) (outcome : Outcome) (log : List LogEntry) : Session :=
  let events := outcome.events (session.cursor + 1) line
  { session with
    cursor := session.cursor + 1
    environment := ⟨session.environment.bindings ++ outcome.bindings⟩
    report := ⟨session.report.events ++ events⟩
    phase := .awaitingLine
    notices := session.notices ++ events.map (⟨·, session.phaseOf line⟩)
    log := log }

theorem phaseOf_of_accepted (session : Session) {line : Text} {statement : Statement}
    (accepted : Statement.ofLine line = .ok statement) : session.phaseOf line = statement.phase session.phase := by
  unfold phaseOf
  rw [accepted]
  cases statement <;> rfl

theorem executeLine_of_yields {session : Session} {line : Text} {outcome : Outcome}
    (yields : Yields session.environment line outcome) :
    (∃ error, outcome = .failed error ∧
      session.executeLine line = ({ session with phase := session.phaseOf line }, some (.line error))) ∨
    ∃ statement log, Statement.ofLine line = .ok statement ∧
      session.executeLine line = (session.behind line statement outcome log, none) := by
  rcases yields.of_statement with ⟨error, rejected, rfl⟩ | ⟨statement, accepted, settled | ⟨error, failed, rfl⟩⟩
  · refine .inl ⟨error, rfl, ?_⟩
    simp only [executeLine, phaseOf, rejected]
  · obtain ⟨log, executed⟩ := execute_of_ok line settled
    refine .inr ⟨statement, log, accepted, ?_⟩
    simp only [executeLine, accepted, executed]
  · refine .inl ⟨error, rfl, ?_⟩
    simp only [executeLine, accepted, execute_of_error line failed, session.phaseOf_of_accepted accepted]

/-- A step adds what the line at the cursor binds and tells, and records the error of a line that
    fails. -/
theorem step_of_yields {session : Session} {line : Text} (found : session.lines[session.cursor]? = some line)
    {outcome : Outcome} (yields : Yields session.environment line outcome) :
    ∃ log, session.step = .ok (true, session.after line outcome log) := by
  have yieldsBehind : Yields { session with cursor := session.cursor + 1 }.environment line outcome := yields
  rw [step, found]
  rcases executeLine_of_yields yieldsBehind with ⟨error, rfl, failed⟩ | ⟨statement, log, accepted, executed⟩
  · simp only [failed, recover, announce, Report.add, after, phaseOf, Outcome.bindings, Outcome.events, List.append_nil]
    rw [note_eq]
    exact ⟨_, rfl⟩
  · simp only [executed, after, session.phaseOf_of_accepted accepted]
    exact ⟨log, rfl⟩

theorem step_at_end {session : Session} (atEnd : session.lines.length ≤ session.cursor) :
    session.step = .ok (false, { session with phase := .done }) := by
  rw [step, List.getElem?_eq_none atEnd]

theorem step_inside {session : Session} (more : session.cursor < session.lines.length) :
    ∃ line outcome log, session.lines[session.cursor]? = some line ∧ Yields session.environment line outcome ∧
      session.step = .ok (true, session.after line outcome log) := by
  have found : session.lines[session.cursor]? = some session.lines[session.cursor] := List.getElem?_eq_getElem more
  obtain ⟨outcome, yields⟩ := exists_yields session.environment session.lines[session.cursor]
  obtain ⟨log, stepped⟩ := step_of_yields found yields
  exact ⟨_, outcome, log, found, yields, stepped⟩

/-- What no line changes, whatever its outcome. -/
def Kept (holds : Session → Prop) : Prop :=
  ∀ session line outcome log, session.lines[session.cursor]? = some line → Yields session.environment line outcome →
    holds session → holds (session.after line outcome log)

theorem advance_add (first second : Nat) (session : Session) :
    advance (first + second) session = advance first session >>= advance second := by
  induction first generalizing session with
  | zero =>
    rw [Nat.zero_add]
    rfl
  | succ first ih =>
    rw [Nat.succ_add, advance, advance]
    cases session.step with
    | error failure => rfl
    | ok result => exact ih result.2

theorem advance_within {holds : Session → Prop} (kept : Kept holds) {session : Session} (first : holds session)
    {count : Nat} (inside : session.cursor + count ≤ session.lines.length) :
    ∃ last, advance count session = .ok last ∧
      holds last ∧ last.lines = session.lines ∧ last.cursor = session.cursor + count := by
  induction count generalizing session with
  | zero => exact ⟨session, rfl, first, rfl, rfl⟩
  | succ count ih =>
    have more : session.cursor < session.lines.length := by omega
    obtain ⟨line, outcome, log, found, yields, stepped⟩ := step_inside more
    have next := kept session line outcome log found yields first
    obtain ⟨last, advanced, reached, sameLines, behind⟩ := ih next (by simp only [after]; omega)
    refine ⟨last, ?_, reached, sameLines, ?_⟩
    · rw [advance, stepped]
      exact advanced
    · simp only [behind, after]
      omega

theorem advance_to_end {holds : Session → Prop} (kept : Kept holds) {session : Session} (first : holds session)
    (inside : session.cursor ≤ session.lines.length) :
    ∃ last, advance (session.lines.length - session.cursor + 1) session = .ok { last with phase := .done } ∧
      holds last ∧ last.lines = session.lines ∧ last.cursor = last.lines.length := by
  have whole : session.cursor + (session.lines.length - session.cursor) = session.lines.length := by omega
  obtain ⟨last, advanced, reached, sameLines, behind⟩ := advance_within kept first (Nat.le_of_eq whole)
  have atEnd : last.cursor = last.lines.length := by rw [behind, whole, sameLines]
  refine ⟨last, ?_, reached, sameLines, atEnd⟩
  -- The last step only finds that no line is left.
  rw [advance_add, advanced]
  show advance 1 last = _
  rw [advance, step_at_end (Nat.le_of_eq atEnd.symm)]
  rfl

/-- A run leads to the end. -/
theorem run_to_end {holds : Session → Prop} (kept : Kept holds) {session : Session} (first : holds session)
    (inside : session.cursor ≤ session.lines.length) :
    ∃ last log, session.run = .ok { last with phase := .done, log := log } ∧
      holds last ∧ last.lines = session.lines ∧ last.cursor = last.lines.length := by
  obtain ⟨last, advanced, reached⟩ := advance_to_end kept first inside
  rw [run, advanced]
  dsimp only
  rw [note_eq]
  exact ⟨last, _, rfl, reached⟩

end Session
end LineCalc
