import LineCalc.Proofs.Frame

/-!
What later lines cannot change. A run never binds another value to a name
(`Account.within_of_prefix`), and with more names bound a tree has the same value or fails alike,
unless it failed for a name without a value (`Expr.evaluate_within`).
-/
namespace LineCalc

/-- What is bound here is bound there, to the same value. -/
def Environment.Within (environment later : Environment) : Prop :=
  ∀ name value, environment.lookup? name = some value → later.lookup? name = some value

/-- A value or an arithmetic error: nothing that another binding could change. -/
def Event.Settled : Event → Prop
  | valued _ => True
  | failed record => record.kind = .arithmetic

/-- A tree evaluates to the same where more names are bound, unless it needs one that is not bound
    here. -/
theorem Expr.evaluate_within {environment later : Environment} (within : environment.Within later) (tree : Expr) :
    tree.evaluate later = tree.evaluate environment ∨
      ∃ name, tree.evaluate environment = .error (.line (.undefinedVariable name)) := by
  induction tree with
  | leaf operand =>
    rw [evaluate_leaf, evaluate_leaf]
    cases operand with
    | literal | unsupported => exact Or.inl rfl
    | reference name =>
      simp only [Operand.evaluate, Environment.lookup]
      cases bound : environment.lookup? name with
      | some value =>
        rw [within name value bound]
        exact Or.inl rfl
      | none => exact Or.inr ⟨name, rfl⟩
  | binary operator left right ihl ihr =>
    rw [evaluate_binary, evaluate_binary]
    rcases ihl with sameLeft | ⟨name, undefined⟩
    · rw [sameLeft]
      cases left.evaluate environment with
      | error => exact Or.inl rfl
      | ok leftValue =>
        -- Only behind a value of the left side is the right side looked at.
        rcases ihr with sameRight | ⟨name, undefined⟩
        · rw [sameRight]
          exact Or.inl rfl
        · rw [undefined]
          exact Or.inr ⟨name, rfl⟩
    · rw [undefined]
      exact Or.inr ⟨name, rfl⟩

theorem Yields.settled {environment later : Environment} {line : Text} {outcome : Outcome}
    (yields : Yields environment line outcome) (within : environment.Within later) {number : Nat} {event : Event}
    (told : event ∈ outcome.events number line) (settled : event.Settled) : Yields later line outcome := by
  cases yields with
  | comment | binding => cases told
  | noNumeral | redefinition =>
    rw [List.mem_singleton.mp told] at settled
    cases settled
  | @rejected error refused =>
    obtain rfl := List.mem_singleton.mp told
    have arithmetic : error.kind = .arithmetic := settled
    obtain ⟨_, ⟨⟩, kind | kind⟩ := Statement.ofLine_error refused <;> cases kind.symm.trans arithmetic
  | @value tree value accepted evaluated =>
    rcases tree.evaluate_within within with same | ⟨name, undefined⟩
    · exact .value accepted (same.trans evaluated)
    · cases evaluated.symm.trans undefined
  | @noValue tree error accepted evaluated =>
    rcases tree.evaluate_within within with same | ⟨name, undefined⟩
    · exact .noValue accepted (same.trans evaluated)
    · obtain rfl := List.mem_singleton.mp told
      cases evaluated.symm.trans undefined
      cases settled

namespace Account

/-- More lines bind more names, and none of them to another value. -/
theorem within_of_prefix {front lines : List Text} (begins : front <+: lines) :
    Environment.Within ⟨bindings front⟩ ⟨bindings lines⟩ := by
  obtain ⟨back, rfl⟩ := begins
  intro name value bound
  rw [lookup?_bindings] at bound ⊢
  rw [firstValue?_append, bound]
  rfl

theorem told_of_yields {lines : List Text} {index : Nat} {line : Text} (found : lines[index]? = some line)
    {outcome : Outcome} (yields : Yields ⟨bindings (lines.take index)⟩ line outcome) :
    Report.told ⟨events lines⟩ index = outcome.events 0 line := by
  have apart : ∀ number, (outcome.events number line).map Event.unnumbered = outcome.events 0 line := by
    intro number
    cases outcome <;> rfl
  rw [told_events, found, Option.bind_some, Option.toList_map, ← (yields_account yields).2, apart]

end Account

namespace Session

/-- A line with the text of an earlier one has the same value, and the same arithmetic error,
    whatever lines stand between them. -/
theorem run_settled (verbose : Bool) {source : Text} {first second : Nat} (later : first < second)
    (same : (Lines.ofText source)[first]? = (Lines.ofText source)[second]?) :
    ∃ session, (start verbose source).run = .ok session ∧
      ∀ event ∈ session.report.told first, event.Settled → session.report.told second = [event] := by
  obtain ⟨session, ran, -, -, report⟩ := Account.run_accounts verbose source
  refine ⟨session, ran, ?_⟩
  rw [report]
  intro event told settled
  cases found : (Lines.ofText source)[first]? with
  | none =>
    rw [Account.told_events, found] at told
    cases told
  | some line =>
    obtain ⟨outcome, yields⟩ := exists_yields ⟨Account.bindings ((Lines.ofText source).take first)⟩ line
    rw [Account.told_of_yields found yields] at told
    have within := Account.within_of_prefix (List.take_prefix_take_left (l := Lines.ofText source) (Nat.le_of_lt later))
    have again := yields.settled within told settled
    rw [Account.told_of_yields (same.symm.trans found) again]
    cases outcome with
    | passed | bound => cases told
    | valued | failed => rw [List.mem_singleton.mp told, Outcome.events]

theorem run_settled_division :
    (Lines.ofText "3 / 0 * y\ny\ny := 2\n3 / 0 * y".toList)[0]? =
      (Lines.ofText "3 / 0 * y\ny\ny := 2\n3 / 0 * y".toList)[3]? ∧
    ∃ session, (start false "3 / 0 * y\ny\ny := 2\n3 / 0 * y".toList).run = .ok session ∧
      session.report.told 0 = [.ofError 0 "3 / 0 * y".toList .divisionByZero] ∧
      session.report.told 3 = [.ofError 0 "3 / 0 * y".toList .divisionByZero] := by
  have same : (Lines.ofText "3 / 0 * y\ny\ny := 2\n3 / 0 * y".toList)[0]? =
      (Lines.ofText "3 / 0 * y\ny\ny := 2\n3 / 0 * y".toList)[3]? := by decide +kernel
  have failed : (start false "3 / 0 * y\ny\ny := 2\n3 / 0 * y".toList).run.toOption.map
      (fun session => session.report.told 0) = some [.ofError 0 "3 / 0 * y".toList .divisionByZero] := by decide +kernel
  obtain ⟨session, ran, settled⟩ := run_settled false (by decide : 0 < 3) same
  rw [ran] at failed
  have told : session.report.told 0 = [.ofError 0 "3 / 0 * y".toList .divisionByZero] := Option.some.inj failed
  exact ⟨same, session, ran, told, settled _ (by rw [told]; exact List.mem_singleton_self _) rfl⟩

end Session
end LineCalc
