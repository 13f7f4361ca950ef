import LineCalc.Proofs.Classification
import LineCalc.Proofs.History

/-!
The phase in which a listener is told an event. It tells the class of the event, and it is the
phase of the line that the event is told of, never one of an earlier line (`Notice.Identifies`).
-/
namespace LineCalc

/-- The phase in which errors of a kind arise. -/
def ErrorKind.phase : ErrorKind → Phase
  | lexical | syntactic => .awaitingLine
  | numberFormat | redefinition => .assigning
  | undefinedVariable | arithmetic => .evaluating

def Event.phase : Event → Phase
  | failed record => record.kind.phase
  | valued _ => .evaluating

/-- The phase of a notice tells the class of its event, and is settled by the line of that event
    alone. -/
structure Notice.Identifies (notice : Notice) : Prop where
  evaluating : notice.phase = .evaluating ↔
    (∃ record, notice.event = .valued record) ∨
      ∃ record, notice.event = .failed record ∧ (record.kind = .undefinedVariable ∨ record.kind = .arithmetic)
  assigning : notice.phase = .assigning ↔
    ∃ record, notice.event = .failed record ∧ (record.kind = .numberFormat ∨ record.kind = .redefinition)
  awaitingLine : notice.phase = .awaitingLine ↔
    ∃ record, notice.event = .failed record ∧ (record.kind = .lexical ∨ record.kind = .syntactic)
  ofExpression : notice.phase = .evaluating ↔ ∃ tree, Statement.ofLine notice.event.line = .ok (.expression tree)
  ofAssignment : notice.phase = .assigning ↔
    ∃ name valueText column, Statement.ofLine notice.event.line = .ok (.assignment name valueText column)
  ofRejected : notice.phase = .awaitingLine ↔ ∃ error, Statement.ofLine notice.event.line = .error (.line error)

/-! ## The phases of events and of lines -/

namespace Event

theorem phase_eq_evaluating_iff {event : Event} : event.phase = .evaluating ↔
    (∃ record, event = .valued record) ∨
      ∃ record, event = .failed record ∧ (record.kind = .undefinedVariable ∨ record.kind = .arithmetic) := by
  cases event with
  | valued record => simp [phase]
  | failed record => cases kind : record.kind <;> simp [phase, kind, ErrorKind.phase]

theorem phase_eq_assigning_iff {event : Event} : event.phase = .assigning ↔
    ∃ record, event = .failed record ∧ (record.kind = .numberFormat ∨ record.kind = .redefinition) := by
  cases event with
  | valued record => simp [phase]
  | failed record => cases kind : record.kind <;> simp [phase, kind, ErrorKind.phase]

theorem phase_eq_awaitingLine_iff {event : Event} : event.phase = .awaitingLine ↔
    ∃ record, event = .failed record ∧ (record.kind = .lexical ∨ record.kind = .syntactic) := by
  cases event with
  | valued record => simp [phase]
  | failed record => cases kind : record.kind <;> simp [phase, kind, ErrorKind.phase]

end Event

namespace Session

variable {session : Session} {line : Text}

theorem phaseOf_eq_evaluating_iff (waiting : session.phase = .awaitingLine) :
    session.phaseOf line = .evaluating ↔ ∃ tree, Statement.ofLine line = .ok (.expression tree) := by
  rcases Statement.ofLine_outcome line with found | ⟨_, _, _, found⟩ | ⟨_, found⟩ | ⟨_, found, -⟩ <;>
    simp [phaseOf, found, waiting]

theorem phaseOf_eq_assigning_iff (waiting : session.phase = .awaitingLine) :
    session.phaseOf line = .assigning ↔
      ∃ name valueText column, Statement.ofLine line = .ok (.assignment name valueText column) := by
  rcases Statement.ofLine_outcome line with found | ⟨_, _, _, found⟩ | ⟨_, found⟩ | ⟨_, found, -⟩ <;>
    simp [phaseOf, found, waiting]

theorem phaseOf_eq_awaitingLine_iff (waiting : session.phase = .awaitingLine) :
    session.phaseOf line = .awaitingLine ↔ ∃ error, Statement.ofLine line = .error (.line error) := by
  rcases Statement.ofLine_outcome line with found | ⟨_, _, _, found⟩ | ⟨_, found⟩ | ⟨_, found, -⟩ <;>
    simp [phaseOf, found, waiting]

end Session

theorem Statement.Tells.phase {statement : Statement} {told : List Event} (tells : statement.Tells told)
    {event : Event} (member : event ∈ told) {session : Session} {line : Text}
    (accepted : Statement.ofLine line = .ok statement) : session.phaseOf line = event.phase := by
  cases statement with
  | comment =>
    cases tells
    cases member
  | assignment =>
    have phase : session.phaseOf line = .assigning := by simp only [Session.phaseOf, accepted]
    rcases tells with rfl | ⟨record, rfl, kind⟩
    · cases member
    · rw [phase, List.mem_singleton.mp member]
      exact (Event.phase_eq_assigning_iff.mpr ⟨record, rfl, kind⟩).symm
  | expression =>
    have phase : session.phaseOf line = .evaluating := by simp only [Session.phaseOf, accepted]
    rcases tells with ⟨record, rfl⟩ | ⟨record, rfl, kind⟩
    all_goals rw [phase, List.mem_singleton.mp member]
    · exact (Event.phase_eq_evaluating_iff.mpr (Or.inl ⟨record, rfl⟩)).symm
    · exact (Event.phase_eq_evaluating_iff.mpr (Or.inr ⟨record, rfl, kind⟩)).symm
  | unsupported => exact tells.elim

/-- What a session that waits for a line tells of it arises in the phase of the line. -/
theorem Yields.phase {session : Session} {line : Text} {outcome : Outcome} {number : Nat} {event : Event}
    (yields : Yields session.environment line outcome) (waiting : session.phase = .awaitingLine)
    (member : event ∈ outcome.events number line) : session.phaseOf line = event.phase := by
  rcases yields.tells number with ⟨statement, accepted, tells⟩ | ⟨error, rejected, early, told⟩
  · exact tells.phase member accepted
  · rw [told] at member
    rw [(Session.phaseOf_eq_awaitingLine_iff waiting).mpr ⟨error, rejected⟩, List.mem_singleton.mp member]
    exact (Event.phase_eq_awaitingLine_iff.mpr ⟨_, rfl, early⟩).symm

theorem Notice.identifies_of_waiting {session : Session} (waiting : session.phase = .awaitingLine) {event : Event}
    (arises : session.phaseOf event.line = event.phase) : Notice.Identifies ⟨event, session.phaseOf event.line⟩ where
  evaluating := by rw [arises, Event.phase_eq_evaluating_iff]
  assigning := by rw [arises, Event.phase_eq_assigning_iff]
  awaitingLine := by rw [arises, Event.phase_eq_awaitingLine_iff]
  ofExpression := Session.phaseOf_eq_evaluating_iff waiting
  ofAssignment := Session.phaseOf_eq_assigning_iff waiting
  ofRejected := Session.phaseOf_eq_awaitingLine_iff waiting

/-- No expression has an error of its numerals. -/
theorem Notice.Identifies.kind_ne_numberFormat {notice : Notice} (identifies : notice.Identifies) {tree : Expr}
    (accepted : Statement.ofLine notice.event.line = .ok (.expression tree)) {record : ErrorRecord}
    (failed : notice.event = .failed record) : record.kind ≠ .numberFormat := by
  intro kind
  have evaluating := identifies.ofExpression.mpr ⟨tree, accepted⟩
  have assigning := identifies.assigning.mpr ⟨record, failed, Or.inl kind⟩
  cases evaluating.symm.trans assigning

/-! ## The notices of a session -/

namespace Session

/-- The listener has been told all events, each in a phase that identifies it. -/
structure Informs (session : Session) : Prop where
  complete : session.notices.map Notice.event = session.report.events
  identifies : ∀ notice ∈ session.notices, notice.Identifies

theorem kept_informs : Kept fun session => session.Steady ∧ session.Informs := by
  rintro session line outcome log found yields ⟨steady, informs⟩
  refine ⟨kept_steady session line outcome log found yields steady, ?_, ?_⟩
  · show List.map Notice.event (session.notices ++ _) = session.report.events ++ _
    rw [List.map_append, informs.complete, List.map_map]
    exact congrArg (session.report.events ++ ·) (List.map_id _)
  · intro notice member
    rcases List.mem_append.mp member with before | added
    · exact informs.identifies notice before
    · obtain ⟨event, told, rfl⟩ := List.mem_map.mp added
      obtain ⟨inside, -⟩ := List.getElem?_eq_some_iff.mp found
      -- A session that is done has no line left, so this one waits for the line.
      have waiting : session.phase = .awaitingLine :=
        steady.phase.resolve_right fun done => absurd (steady.ended done) (Nat.ne_of_lt inside)
      obtain ⟨-, rfl⟩ := Outcome.mem_events told
      exact Notice.identifies_of_waiting waiting (yields.phase waiting told)

/-- Behind every history of steps and runs, the listener has been told every event in the phase that
    identifies its class: a value or the lack of one while the line is evaluated, an error of a
    value or a name while it is assigned, and a lexical or a syntactic error while the line is
    waited for. No expression has an error of its numerals. -/
theorem answer_identifies (verbose : Bool) (source : Text) (history : List Call) :
    ∃ count session, (start verbose source).answer history = .ok (count, session) ∧
      session.notices.map Notice.event = session.report.events ∧
      ∀ notice ∈ session.notices, notice.Identifies ∧
        Lines.line? (Lines.ofText source) notice.event.lineNumber = some notice.event.line ∧
        ∀ tree record, Statement.ofLine notice.event.line = .ok (.expression tree) →
          notice.event = .failed record → record.kind ≠ .numberFormat := by
  have first : (start verbose source).Informs := ⟨rfl, by rintro _ ⟨⟩⟩
  obtain ⟨count, session, answered, steady, informs, sameLines, -⟩ :=
    (steady_start verbose source).answer_keeps kept_informs (fun _ _ informs => ⟨informs.complete, informs.identifies⟩)
      first history
  refine ⟨count, session, answered, informs.complete, fun notice member => ?_⟩
  have identifies := informs.identifies notice member
  have told : notice.event ∈ session.report.events := informs.complete ▸ List.mem_map_of_mem member
  refine ⟨identifies, ?_, fun tree record accepted failed => identifies.kind_ne_numberFormat accepted failed⟩
  have placed := (steady.placed notice.event told).2.2
  rw [sameLines] at placed
  exact placed

end Session
end LineCalc
