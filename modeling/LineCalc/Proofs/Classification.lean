import LineCalc.Proofs.Frame
import LineCalc.Service

/-!
The answer on a line and the run over it. A request to parse reads each line as a run reads it, so
it answers with the class of its statement or with its error, which is a lexical or syntactic
error of the run (`Service.LineAnswer.Agrees`).
-/
namespace LineCalc

/-- What may be told of a line that says a statement: nothing of a comment, an error of its
    value or its name of an assignment, and a value or the lack of one of an expression. -/
def Statement.Tells (told : List Event) : Statement → Prop
  | comment _ => told = []
  | assignment _ _ _ =>
    told = [] ∨ ∃ record, told = [.failed record] ∧ (record.kind = .numberFormat ∨ record.kind = .redefinition)
  | expression _ =>
    (∃ record, told = [.valued record]) ∨
      ∃ record, told = [.failed record] ∧ (record.kind = .undefinedVariable ∨ record.kind = .arithmetic)
  | unsupported => False

theorem LineError.IsOfValue.kind {error : LineError} (cause : error.IsOfValue) :
    error.kind = .undefinedVariable ∨ error.kind = .arithmetic := by
  cases cause with
  | undefinedVariable => exact Or.inl rfl
  | divisionByZero | moduloByZero => exact Or.inr rfl

/-- A run tells of a line what its statement allows, or the lexical or syntactic error for which it
    is none. -/
theorem Yields.tells {environment : Environment} {line : Text} {outcome : Outcome}
    (yields : Yields environment line outcome) (number : Nat) :
    (∃ statement, Statement.ofLine line = .ok statement ∧ statement.Tells (outcome.events number line)) ∨
      ∃ error : LineError, Statement.ofLine line = .error (.line error) ∧
        (error.kind = .lexical ∨ error.kind = .syntactic) ∧ outcome.events number line = [.ofError number line error] := by
  cases yields with
  | comment accepted => exact Or.inl ⟨_, accepted, rfl⟩
  | noNumeral accepted => exact Or.inl ⟨_, accepted, Or.inr ⟨_, rfl, Or.inl rfl⟩⟩
  | redefinition accepted => exact Or.inl ⟨_, accepted, Or.inr ⟨_, rfl, Or.inr rfl⟩⟩
  | binding accepted => exact Or.inl ⟨_, accepted, Or.inl rfl⟩
  | value accepted => exact Or.inl ⟨_, accepted, Or.inl ⟨_, rfl⟩⟩
  | noValue accepted evaluated =>
    have ofValue := Statement.isOfValue_of_expression accepted evaluated
    exact Or.inl ⟨_, accepted, Or.inr ⟨_, rfl, ofValue.kind⟩⟩
  | rejected refused =>
    obtain ⟨_, cause, kind⟩ := Statement.ofLine_error refused
    cases cause
    exact Or.inr ⟨_, refused, kind, rfl⟩

theorem Statement.Tells.kind {statement : Statement} {told : List Event} (tells : statement.Tells told)
    {record : ErrorRecord} (member : .failed record ∈ told) : record.kind ≠ .lexical ∧ record.kind ≠ .syntactic := by
  have later : ∀ other : ErrorRecord, told = [.failed other] → record = other := by
    rintro other rfl
    simpa using member
  cases statement with
  | comment =>
    cases tells
    cases member
  | assignment =>
    rcases tells with rfl | ⟨other, same, kind⟩
    · cases member
    · rw [later other same]
      rcases kind with kind | kind <;> rw [kind] <;> decide
  | expression =>
    rcases tells with ⟨other, rfl⟩ | ⟨other, same, kind⟩
    · simp at member
    · rw [later other same]
      rcases kind with kind | kind <;> rw [kind] <;> decide
  | unsupported => exact tells.elim

namespace Service

/-- The line has an error exactly where the run tells a lexical or a syntactic one, and this one;
    otherwise its class is that of its statement, and nothing else is told than the class allows. -/
structure LineAnswer.Agrees (answer : LineAnswer) (told : List Event) : Prop where
  error : ∀ kind message,
    (∃ error, answer.error = some error ∧ error.kind = kind ∧ error.message = message) ↔
      (kind = .lexical ∨ kind = .syntactic) ∧
        ∃ record, .failed record ∈ told ∧ record.kind = kind ∧ record.message = message
  unclassified : answer.kind = none ↔ ∃ error, answer.error = some error
  comment : answer.kind = some "comment".toList ↔ ∃ text, Statement.ofLine answer.line = .ok (.comment text)
  assignment : answer.kind = some "assignment".toList ↔
    ∃ name valueText column, Statement.ofLine answer.line = .ok (.assignment name valueText column)
  expression : answer.kind = some "expression".toList ↔ ∃ tree, Statement.ofLine answer.line = .ok (.expression tree)
  commentTells : answer.kind = some "comment".toList → told = []
  assignmentTells : answer.kind = some "assignment".toList →
    told = [] ∨ ∃ record, told = [.failed record] ∧ (record.kind = .numberFormat ∨ record.kind = .redefinition)
  expressionTells : answer.kind = some "expression".toList →
    (∃ record, told = [.valued record]) ∨
      ∃ record, told = [.failed record] ∧ (record.kind = .undefinedVariable ∨ record.kind = .arithmetic)

/-! ## The answer on a line -/

theorem parseLine_accepted {line : Text} {statement : Statement} (accepted : Statement.ofLine line = .ok statement)
    {expression : Option Text} (rendered : renderStatement statement = .ok expression) (number : Nat) :
    ∃ answer, parseLine number line = .ok answer ∧ answer.lineNumber = number ∧ answer.line = line ∧
      answer.kind = statementClass? statement ∧ answer.error = none := by
  rw [Statement.ofLine] at accepted
  rw [parseLine]
  by_cases comment : Statement.isComment line = true
  · rw [if_pos comment] at accepted
    cases accepted
    rw [if_pos comment]
    exact ⟨_, rfl, rfl, rfl, rfl, rfl⟩
  · rw [if_neg comment] at accepted
    rw [if_neg comment, parseStatement]
    cases scanned : Scan.ofStatement line with
    | error error =>
      rw [scanned] at accepted
      cases accepted
    | ok tokens =>
      rw [scanned] at accepted
      simp only [accepted, rendered]
      exact ⟨_, rfl, rfl, rfl, rfl, rfl⟩

theorem parseLine_rejected {line : Text} {error : LineError} (rejected : Statement.ofLine line = .error (.line error))
    (number : Nat) :
    ∃ answer, parseLine number line = .ok answer ∧ answer.lineNumber = number ∧ answer.line = line ∧
      answer.kind = none ∧ answer.error = some error := by
  rw [Statement.ofLine] at rejected
  rw [parseLine]
  by_cases comment : Statement.isComment line = true
  · rw [if_pos comment] at rejected
    cases rejected
  · rw [if_neg comment] at rejected
    rw [if_neg comment, parseStatement]
    cases scanned : Scan.ofStatement line with
    | error other =>
      rw [scanned] at rejected
      cases rejected
      exact ⟨_, rfl, rfl, rfl, rfl, rfl⟩
    | ok tokens =>
      rw [scanned] at rejected
      simp only [rejected]
      exact ⟨_, rfl, rfl, rfl, rfl, rfl⟩

theorem exists_renderStatement {line : Text} {statement : Statement} (accepted : Statement.ofLine line = .ok statement) :
    ∃ expression, renderStatement statement = .ok expression := by
  cases statement with
  | expression tree =>
    obtain ⟨text, rendered⟩ := (Statement.canonical_of_expression accepted).1.render
    exact ⟨some text, by rw [renderStatement, rendered]⟩
  | comment | assignment | unsupported => exact ⟨none, rfl⟩

theorem agrees_of_accepted {answer : LineAnswer} {statement : Statement} {told : List Event}
    (accepted : Statement.ofLine answer.line = .ok statement) (kind : answer.kind = statementClass? statement)
    (noError : answer.error = none) (tells : statement.Tells told) : answer.Agrees told := by
  -- No error is answered, and what the statement allows to be told is of other kinds.
  have silent : ∀ kind message,
      (∃ error, answer.error = some error ∧ error.kind = kind ∧ error.message = message) ↔
        (kind = .lexical ∨ kind = .syntactic) ∧
          ∃ record, .failed record ∈ told ∧ record.kind = kind ∧ record.message = message := by
    intro kind message
    constructor
    · rintro ⟨error, found, -⟩
      rw [noError] at found
      cases found
    · rintro ⟨early, record, member, rfl, -⟩
      obtain ⟨notLexical, notSyntactic⟩ := tells.kind member
      rcases early with lexical | syntactic
      · exact absurd lexical notLexical
      · exact absurd syntactic notSyntactic
  cases statement with
  | comment =>
    refine ⟨silent, ?_, ?_, ?_, ?_, fun _ => tells, ?_, ?_⟩
    all_goals simp [kind, noError, accepted, statementClass?]
  | assignment =>
    refine ⟨silent, ?_, ?_, ?_, ?_, ?_, fun _ => tells, ?_⟩
    all_goals simp [kind, noError, accepted, statementClass?]
  | expression =>
    refine ⟨silent, ?_, ?_, ?_, ?_, ?_, ?_, fun _ => tells⟩
    all_goals simp [kind, noError, accepted, statementClass?]
  | unsupported => exact tells.elim

theorem agrees_of_rejected {answer : LineAnswer} {error : LineError} {number : Nat}
    (rejected : Statement.ofLine answer.line = .error (.line error)) (kind : answer.kind = none)
    (found : answer.error = some error) (early : error.kind = .lexical ∨ error.kind = .syntactic) :
    answer.Agrees [.ofError number answer.line error] := by
  refine ⟨?_, ?_, ?_, ?_, ?_, ?_, ?_, ?_⟩
  · intro kind message
    constructor
    · rintro ⟨other, same, rfl, rfl⟩
      rw [found] at same
      cases same
      exact ⟨early, _, List.mem_singleton_self _, rfl, rfl⟩
    · rintro ⟨-, record, member, rfl, rfl⟩
      cases List.mem_singleton.mp member
      exact ⟨error, found, rfl, rfl⟩
  all_goals simp [rejected, kind, found]

/-- Every line is answered, and the answer agrees with what a run tells of the line. -/
theorem parseLine_agrees {environment : Environment} {line : Text} {outcome : Outcome}
    (yields : Yields environment line outcome) (number : Nat) :
    ∃ answer, parseLine number line = .ok answer ∧ answer.lineNumber = number ∧ answer.line = line ∧
      answer.Agrees (outcome.events number line) := by
  rcases yields.tells number with ⟨statement, accepted, tells⟩ | ⟨error, rejected, early, told⟩
  · obtain ⟨expression, rendered⟩ := exists_renderStatement accepted
    obtain ⟨answer, parsed, sameNumber, rfl, kind, noError⟩ := parseLine_accepted accepted rendered number
    exact ⟨answer, parsed, sameNumber, rfl, agrees_of_accepted accepted kind noError tells⟩
  · obtain ⟨answer, parsed, sameNumber, rfl, kind, found⟩ := parseLine_rejected rejected number
    rw [told]
    exact ⟨answer, parsed, sameNumber, rfl, agrees_of_rejected rejected kind found early⟩

/-! ## The answers on all lines -/

theorem parseLines_forall {holds : LineAnswer → Prop} {lines : List (Nat × Text)}
    (each : ∀ entry ∈ lines, ∃ answer, parseLine entry.1 entry.2 = .ok answer ∧ answer.lineNumber = entry.1 ∧
      answer.line = entry.2 ∧ holds answer) :
    ∃ answers, parseLines lines = .ok answers ∧
      answers.map (fun answer => (answer.lineNumber, answer.line)) = lines ∧ ∀ answer ∈ answers, holds answer := by
  induction lines with
  | nil => exact ⟨[], rfl, rfl, by simp⟩
  | cons entry rest ih =>
    obtain ⟨number, line⟩ := entry
    obtain ⟨answer, parsed, rfl, rfl, first⟩ := each (number, line) List.mem_cons_self
    obtain ⟨answers, parsedRest, same, later⟩ := ih fun other member => each other (List.mem_cons_of_mem _ member)
    refine ⟨answer :: answers, ?_, ?_, ?_⟩
    · rw [parseLines, parsed, parsedRest]
    · rw [List.map_cons, same]
    · intro other member
      rcases List.mem_cons.mp member with rfl | behind
      · exact first
      · exact later other behind

theorem mem_numbered {lines : List Text} {entry : Nat × Text} (member : entry ∈ Lines.numbered lines) :
    ∃ index, entry.1 = index + 1 ∧ lines[index]? = some entry.2 := by
  obtain ⟨⟨line, number⟩, placed, rfl⟩ := List.mem_map.mp member
  obtain ⟨positive, -, same⟩ := List.mem_zipIdx placed
  have successor : number = number - 1 + 1 := by omega
  exact ⟨number - 1, successor, List.getElem?_eq_some_iff.mpr ⟨_, same.symm⟩⟩

/-- A request to parse is always answered, with the numbered lines of a run over the source, and the
    answer on each line agrees with what the run tells of it. -/
theorem parse_agrees (verbose : Bool) (source : Text) :
    ∃ answers session, parse ⟨source⟩ = .ok answers ∧ (Session.start verbose source).run = .ok session ∧
      answers.map (fun answer => (answer.lineNumber, answer.line)) = Lines.numbered session.lines ∧
      ∀ answer ∈ answers, answer.Agrees (session.report.eventsOf answer.lineNumber) := by
  obtain ⟨session, ran, sameLines, -, told⟩ := Account.run_accounts verbose source
  have each : ∀ entry ∈ Lines.numbered (Lines.ofText source), ∃ answer, parseLine entry.1 entry.2 = .ok answer ∧
      answer.lineNumber = entry.1 ∧ answer.line = entry.2 ∧
      answer.Agrees (session.report.eventsOf answer.lineNumber) := by
    rintro ⟨number, line⟩ member
    obtain ⟨index, rfl, found⟩ := mem_numbered member
    obtain ⟨outcome, yields, tells⟩ := Account.exists_outcome found
    obtain ⟨answer, parsed, sameNumber, sameLine, agrees⟩ := parseLine_agrees yields (index + 1)
    refine ⟨answer, parsed, sameNumber, sameLine, ?_⟩
    rw [sameNumber, told]
    exact tells ▸ agrees
  obtain ⟨answers, parsed, numbered, agree⟩ := parseLines_forall each
  refine ⟨answers, session, parsed, ran, ?_, agree⟩
  rw [sameLines]
  exact numbered

end Service
end LineCalc
