import LineCalc.Proofs.History

/-!
Statements are carried out as a whole or not at all, in any session, and also where no line says
them. What a session gained tells which outcome of a statement it was (`Session.Gains.unique`).
-/
namespace LineCalc

namespace Statement

/-- The outcomes that a statement can have, if it has one. -/
def Allows : Statement → Outcome → Prop
  | comment _, .passed => True
  | assignment name _ _, .bound other _ => other = name
  | expression _, .valued _ => True
  | _, _ => False

end Statement

/-- A session has the bindings and the events of an outcome behind its own, and a name that it bound
    was not bound before. -/
structure Session.Gains (session : Session) (line : Text) (outcome : Outcome) (after : Session) : Prop where
  bindings : after.environment.bindings = session.environment.bindings ++ outcome.bindings
  events : after.report.events = session.report.events ++ outcome.events session.cursor line
  unbound : ∀ name value, outcome = .bound name value → session.environment.contains name = false

namespace Statement

variable {environment : Environment} {statement : Statement} {outcome : Outcome}

theorem allows_of_outcome (settled : statement.outcome environment = .ok outcome) : statement.Allows outcome := by
  cases statement with
  | comment text =>
    cases settled
    trivial
  | assignment name valueText column =>
    obtain ⟨value, -, -, rfl⟩ := outcome_assignment settled
    rfl
  | expression tree =>
    obtain ⟨value, -, rfl⟩ := outcome_expression settled
    trivial
  | unsupported => cases settled

theorem unbound_of_outcome {name : Text} {value : Int}
    (settled : statement.outcome environment = .ok (.bound name value)) : environment.lookup? name = none := by
  cases statement with
  | comment text => cases settled
  | assignment other valueText column =>
    obtain ⟨number, -, unbound, same⟩ := outcome_assignment settled
    cases same
    exact unbound
  | expression tree =>
    obtain ⟨value, -, other⟩ := outcome_expression settled
    cases other
  | unsupported => cases settled

end Statement

namespace Session

variable {session : Session} {line : Text} {statement : Statement} {outcome : Outcome}

theorem gains_of_outcome (line : Text) (settled : statement.outcome session.environment = .ok outcome)
    (log : List LogEntry) :
    session.Gains line outcome (session.behind line statement outcome log) where
  bindings := rfl
  events := rfl
  unbound := by
    rintro name value rfl
    have apart := Environment.lookup?_eq_none_iff.mp (Statement.unbound_of_outcome settled)
    simpa [Environment.contains] using apart

/-- What a session gained tells which of the outcomes of a statement it was. -/
theorem Gains.unique {after : Session} {other : Outcome} (gains : session.Gains line outcome after)
    (others : session.Gains line other after) (allowed : statement.Allows outcome)
    (otherAllowed : statement.Allows other) : other = outcome := by
  have bindings := List.append_cancel_left (others.bindings.symm.trans gains.bindings)
  have events := List.append_cancel_left (others.events.symm.trans gains.events)
  cases statement with
  | comment text =>
    cases outcome <;> cases allowed
    cases other <;> cases otherAllowed
    rfl
  | assignment name valueText column =>
    cases outcome <;> cases allowed
    cases other <;> cases otherAllowed
    cases bindings
    rfl
  | expression tree =>
    cases outcome <;> cases allowed
    cases other <;> cases otherAllowed
    cases events
    rfl
  | unsupported => cases outcome <;> cases allowed

/-- A statement that fails binds nothing and tells nothing, and one that does not fail does one
    thing, that of its kind. -/
theorem execute_atomic (session : Session) (line : Text) (statement : Statement) :
    (∀ failure, (session.execute line statement).2 = some failure →
      (session.execute line statement).1.environment = session.environment ∧
        (session.execute line statement).1.report = session.report ∧
        (session.execute line statement).1.notices = session.notices) ∧
      ((session.execute line statement).2 = none →
        ∃! outcome, statement.Allows outcome ∧ session.Gains line outcome (session.execute line statement).1) := by
  cases settled : statement.outcome session.environment with
  | error failure =>
    rw [execute_of_error line settled]
    refine ⟨fun _ _ => ⟨rfl, rfl, rfl⟩, fun succeeded => ?_⟩
    cases succeeded
  | ok outcome =>
    obtain ⟨log, executed⟩ := execute_of_ok line settled
    rw [executed]
    refine ⟨fun failure failed => ?_, fun _ => ?_⟩
    · cases failed
    · have allowed := Statement.allows_of_outcome settled
      have gains := gains_of_outcome line settled log
      exact ⟨outcome, ⟨allowed, gains⟩, fun other ⟨otherAllowed, others⟩ => gains.unique others allowed otherAllowed⟩

/-- A sign of assignment is no operator: between two operands it leaves the session as it was. -/
theorem execute_atomic_operators :
    let session : Session := { start true [] with environment := ⟨[("x".toList, 2)]⟩ }
    let triple : Expr := .binary .star (.leaf (.reference "x".toList)) (.leaf (.literal "3".toList))
    let broken := session.execute [] (.expression (.binary .assign triple triple))
    let whole := session.execute [] (.expression triple)
    broken.2 = some (.noOperation .assign) ∧ broken.1.environment = session.environment ∧
      broken.1.report = session.report ∧ whole.2 = none ∧
      ∃! outcome, (Statement.expression triple).Allows outcome ∧ session.Gains [] outcome whole.1 := by
  refine ⟨?failed, ((execute_atomic _ _ _).1 _ ?failed).1, ((execute_atomic _ _ _).1 _ ?failed).2.1, ?valued,
    (execute_atomic _ _ _).2 ?valued⟩
  case failed | valued => decide +kernel

end Session
end LineCalc
