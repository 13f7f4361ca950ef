import LineCalc.Proofs.Evaluation
import LineCalc.Session

/-!
How statements are carried out. What comes of a statement is settled by the statement and the
environment (`Statement.outcome`): a failure leaves the session as it is but for its phase
(`Session.execute_of_error`), and else the outcome is all that is added to it
(`Session.execute_of_ok`). This holds also of statements that no line says.
-/
namespace LineCalc

/-- What becomes of a line. -/
inductive Outcome
  | passed
  | bound (name : Text) (value : Int)
  | valued (value : Int)
  | failed (error : LineError)
  deriving DecidableEq

def Outcome.bindings : Outcome → List (Text × Int)
  | bound name value => [(name, value)]
  | _ => []

def Outcome.events (number : Nat) (line : Text) : Outcome → List Event
  | valued value => [.valued ⟨number, line, value⟩]
  | failed error => [.ofError number line error]
  | _ => []

namespace Statement

/-- What comes of a statement in an environment. -/
def outcome (environment : Environment) : Statement → Except Failure Outcome
  | comment _ => .ok .passed
  | assignment name valueText _ =>
    match Numeral.read valueText with
    | .error error => .error (.line error)
    | .ok value =>
      match environment.define name value with
      | .error error => .error (.line error)
      | .ok _ => .ok (.bound name value)
  | expression tree => (tree.evaluate environment).map .valued
  | unsupported => .error .unsupportedStatement

/-- The phase in which a statement is carried out behind another phase. -/
def phase (before : Phase) : Statement → Phase
  | comment _ => .comment
  | assignment _ _ _ => .assigning
  | expression _ => .evaluating
  | unsupported => before

end Statement

/-! ## Texts of trees that have a value -/

theorem TokenKind.exists_symbol_of_apply {operator : TokenKind} {left right value : Int}
    (applied : operator.apply left right = .ok value) : ∃ symbol, operator.operatorSymbol? = some symbol := by
  cases operator <;> first | exact ⟨_, rfl⟩ | cases applied

theorem Expr.exists_render_of_evaluate {tree : Expr} {environment : Environment} {value : Int}
    (evaluated : tree.evaluate environment = .ok value) : ∃ text, tree.render = .ok text := by
  induction tree generalizing value with
  | leaf operand =>
    rw [evaluate_leaf] at evaluated
    rw [render_leaf]
    cases operand with
    | literal digits => exact ⟨digits, rfl⟩
    | reference name => exact ⟨name, rfl⟩
    | unsupported => cases evaluated
  | binary operator left right ihl ihr =>
    rw [evaluate_binary] at evaluated
    obtain ⟨leftValue, leftEvaluated, behindLeft⟩ := Failure.values_of_bind evaluated
    obtain ⟨rightValue, rightEvaluated, applied⟩ := Failure.values_of_bind behindLeft
    obtain ⟨front, leftText⟩ := ihl leftEvaluated
    obtain ⟨back, rightText⟩ := ihr rightEvaluated
    obtain ⟨symbol, written⟩ := TokenKind.exists_symbol_of_apply applied
    rw [render_binary, leftText, rightText, written]
    exact ⟨_, rfl⟩

/-! ## Statements with an outcome -/

namespace Statement

variable {environment : Environment} {outcome : Outcome}

theorem outcome_assignment {name valueText : Text} {column : Int}
    (settled : (assignment name valueText column).outcome environment = .ok outcome) :
    ∃ value, Numeral.read valueText = .ok value ∧ environment.lookup? name = none ∧ outcome = .bound name value := by
  rw [Statement.outcome] at settled
  cases value : Numeral.read valueText with
  | error error =>
    rw [value] at settled
    cases settled
  | ok number =>
    cases bound : environment.lookup? name with
    | some existing =>
      simp only [value, Environment.define_of_bound bound] at settled
      cases settled
    | none =>
      simp only [value, Environment.define_of_unbound bound] at settled
      cases settled
      exact ⟨number, rfl, rfl, rfl⟩

theorem outcome_expression {tree : Expr} (settled : (expression tree).outcome environment = .ok outcome) :
    ∃ value, tree.evaluate environment = .ok value ∧ outcome = .valued value := by
  rw [Statement.outcome] at settled
  cases evaluated : tree.evaluate environment with
  | error failure =>
    rw [evaluated] at settled
    cases settled
  | ok value =>
    rw [evaluated] at settled
    cases settled
    exact ⟨value, rfl, rfl⟩

end Statement

/-! ## Carrying out a statement -/

namespace Session

/-- The session behind a statement with an outcome. -/
def behind (session : Session) (line : Text) (statement : Statement) (outcome : Outcome) (log : List LogEntry) :
    Session :=
  let phase := statement.phase session.phase
  let events := outcome.events session.cursor line
  { session with
    environment := ⟨session.environment.bindings ++ outcome.bindings⟩
    report := ⟨session.report.events ++ events⟩
    phase := phase
    notices := session.notices ++ events.map (⟨·, phase⟩)
    log := log }

theorem note_eq (session : Session) (entry : LogEntry) :
    session.note entry = { session with log := (session.note entry).log } := by
  unfold note
  split <;> rfl

variable {session : Session} {statement : Statement} {outcome : Outcome}

/-- A statement that fails leaves the session as it is but for its phase. -/
theorem execute_of_error (line : Text) {failure : Failure}
    (failed : statement.outcome session.environment = .error failure) :
    session.execute line statement = ({ session with phase := statement.phase session.phase }, some failure) := by
  cases statement with
  | comment text => cases failed
  | assignment name valueText column =>
    rw [Statement.outcome] at failed
    cases value : Numeral.read valueText with
    | error error =>
      rw [value] at failed
      cases failed
      simp only [execute, value]
      rfl
    | ok number =>
      cases defined : session.environment.define name number with
      | error error =>
        simp only [value, defined] at failed
        cases failed
        simp only [execute, value, defined]
        rfl
      | ok environment =>
        simp only [value, defined] at failed
        cases failed
  | expression tree =>
    rw [Statement.outcome] at failed
    cases evaluated : tree.evaluate session.environment with
    | error other =>
      rw [evaluated] at failed
      cases failed
      simp only [execute, evaluated]
      rfl
    | ok value =>
      rw [evaluated] at failed
      cases failed
  | unsupported =>
    cases failed
    rfl

/-- A statement that has an outcome does not fail, and adds what the outcome binds and tells. -/
theorem execute_of_ok (line : Text) (settled : statement.outcome session.environment = .ok outcome) :
    ∃ log, session.execute line statement = (session.behind line statement outcome log, none) := by
  cases statement with
  | comment text =>
    cases settled
    simp only [execute, behind, Outcome.bindings, Outcome.events, List.append_nil, List.map_nil]
    rw [note_eq]
    exact ⟨_, rfl⟩
  | assignment name valueText column =>
    obtain ⟨value, number, unbound, rfl⟩ := Statement.outcome_assignment settled
    simp only [execute, number, Environment.define_of_unbound unbound, behind, Outcome.bindings, Outcome.events,
      List.append_nil, List.map_nil]
    rw [note_eq]
    exact ⟨_, rfl⟩
  | expression tree =>
    obtain ⟨value, evaluated, rfl⟩ := Statement.outcome_expression settled
    -- A verbose session renders the tree before it reports the value.
    obtain ⟨rendered, text⟩ := Expr.exists_render_of_evaluate evaluated
    by_cases verbose : session.verbose = true
    · simp only [execute, evaluated, text, if_pos verbose, announceResult, announce, Report.add, behind, Outcome.bindings,
        Outcome.events, List.append_nil]
      rw [note_eq]
      exact ⟨_, rfl⟩
    · simp only [execute, evaluated, if_neg verbose, announceResult, announce, Report.add, behind, Outcome.bindings,
        Outcome.events, List.append_nil]
      exact ⟨_, rfl⟩
  | unsupported => cases settled

end Session
end LineCalc
