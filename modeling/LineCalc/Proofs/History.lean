import LineCalc.Proofs.Account

/-!
Sessions with any history. A session is asked for its next line or for all lines that are left, in
any order and any number of times (`Session.answer`). Behind every history its names are bound
once and its events are in the order of their lines (`Session.Steady`), and what it had bound and
told before a call it still has (`Session.Extends`).
-/
namespace LineCalc

/-- What a session is asked for: its next line, or all lines that are left. -/
inductive Call
  | step
  | run
  deriving DecidableEq

/-- The last step of a run finds that no line is left. -/
def Call.steps (session : Session) : Call → Nat
  | step => 1
  | run => session.lines.length - session.cursor + 1

def Call.answer (session : Session) : Call → Except Failure Session
  | step => session.step.map Prod.snd
  | run => session.run

namespace Session

/-- How many of a number of steps find a line and work on it. -/
def worked (session : Session) : Nat → Nat
  | 0 => 0
  | count + 1 =>
    match session.step with
    | .ok (true, after) => after.worked count + 1
    | .ok (false, after) => after.worked count
    | .error _ => 0

/-- The session behind a history of calls, and how many lines they worked on. -/
def answer (session : Session) : List Call → Except Failure (Nat × Session)
  | [] => .ok (0, session)
  | call :: rest => do
    let after ← call.answer session
    let (count, last) ← after.answer rest
    return (session.worked (call.steps session) + count, last)

/-- What holds of a session whatever it was asked for. -/
structure Steady (session : Session) : Prop where
  inside : session.cursor ≤ session.lines.length
  phase : session.phase = .awaitingLine ∨ session.phase = .done
  ended : session.phase = .done → session.cursor = session.lines.length
  distinct : session.environment.names.Nodup
  ordered : session.report.events.Pairwise fun first second => first.lineNumber < second.lineNumber
  placed : ∀ event ∈ session.report.events, 1 ≤ event.lineNumber ∧ event.lineNumber ≤ session.cursor ∧
    Lines.line? session.lines event.lineNumber = some event.line

/-- A session has the lines of another, and all that the other has bound and told, before
    what it has added. -/
structure Extends (earlier later : Session) : Prop where
  lines : later.lines = earlier.lines
  bindings : earlier.environment.bindings <+: later.environment.bindings
  events : earlier.report.events <+: later.report.events

/-! ## What a line adds -/

theorem Kept.and {first second : Session → Prop} (kept : Kept first) (other : Kept second) :
    Kept fun session => first session ∧ second session := by
  intro session line outcome log found yields both
  exact ⟨kept session line outcome log found yields both.1, other session line outcome log found yields both.2⟩

end Session

theorem Environment.lookup?_eq_none_iff {environment : Environment} {name : Text} :
    environment.lookup? name = none ↔ name ∉ environment.names := by
  rw [lookup?, List.lookup_eq_none_iff]
  constructor
  · intro apart member
    obtain ⟨binding, bound, rfl⟩ := List.mem_map.mp member
    have differs := apart binding bound
    simp at differs
  · intro unbound binding bound
    have differs : name ≠ binding.1 := by
      rintro rfl
      exact unbound (List.mem_map_of_mem bound)
    simpa using differs

theorem Yields.binds_new {environment : Environment} {line : Text} {outcome : Outcome}
    (yields : Yields environment line outcome) {binding : Text × Int} (member : binding ∈ outcome.bindings) :
    binding.1 ∉ environment.names := by
  cases yields with
  | binding _ _ unbound =>
    obtain rfl := List.mem_singleton.mp member
    exact Environment.lookup?_eq_none_iff.mp unbound
  | comment | rejected | noNumeral | redefinition | value | noValue => simp [Outcome.bindings] at member

namespace Outcome

theorem bindings_nodup (outcome : Outcome) : (outcome.bindings.map Prod.fst).Nodup := by
  cases outcome <;> simp [bindings]

theorem events_ordered (outcome : Outcome) (number : Nat) (line : Text) :
    (outcome.events number line).Pairwise fun first second => first.lineNumber < second.lineNumber := by
  cases outcome <;> simp [events]

theorem mem_events {outcome : Outcome} {number : Nat} {line : Text} {event : Event}
    (member : event ∈ outcome.events number line) : event.lineNumber = number ∧ event.line = line := by
  cases outcome with
  | passed | bound => simp [events] at member
  | valued | failed =>
    obtain rfl := List.mem_singleton.mp member
    exact ⟨rfl, rfl⟩

end Outcome

namespace Session

theorem kept_steady : Kept Steady := by
  intro session line outcome log found yields steady
  obtain ⟨more, -⟩ := List.getElem?_eq_some_iff.mp found
  refine ⟨more, Or.inl rfl, ?_, ?_, ?_, ?_⟩
  · intro done
    cases done
  · show (List.map Prod.fst (session.environment.bindings ++ outcome.bindings)).Nodup
    rw [List.map_append, List.nodup_append]
    refine ⟨steady.distinct, outcome.bindings_nodup, ?_⟩
    intro name before other added same
    obtain ⟨binding, member, rfl⟩ := List.mem_map.mp added
    exact yields.binds_new member (same ▸ before)
  · show (session.report.events ++ outcome.events (session.cursor + 1) line).Pairwise _
    rw [List.pairwise_append]
    refine ⟨steady.ordered, outcome.events_ordered _ line, ?_⟩
    intro first before second added
    -- Earlier events stand at or before the cursor, and the new one right behind it.
    have behind := (steady.placed first before).2.1
    have number := (Outcome.mem_events added).1
    omega
  · intro event member
    rcases List.mem_append.mp member with before | added
    · obtain ⟨positive, behind, placed⟩ := steady.placed event before
      refine ⟨positive, ?_, placed⟩
      show event.lineNumber ≤ ((session.cursor + 1 : Nat) : Int)
      omega
    · obtain ⟨number, same⟩ := Outcome.mem_events added
      refine ⟨by omega, Int.le_of_eq number, ?_⟩
      rw [number, same]
      exact (Lines.line?_succ session.lines session.cursor).trans found

theorem kept_extends (earlier : Session) : Kept earlier.Extends := by
  intro session line outcome log _ _ known
  refine ⟨known.lines, ?_, ?_⟩
  · exact known.bindings.trans (List.prefix_append _ _)
  · exact known.events.trans (List.prefix_append _ _)

theorem extends_self (session : Session) : session.Extends session :=
  ⟨rfl, List.prefix_refl _, List.prefix_refl _⟩

theorem steady_start (verbose : Bool) (source : Text) : (start verbose source).Steady := by
  refine ⟨Nat.zero_le _, Or.inl rfl, ?_, List.nodup_nil, List.Pairwise.nil, ?_⟩
  · intro done
    cases done
  · intro event member
    cases member

theorem extends_finish (session : Session) (log : List LogEntry) :
    session.Extends { session with phase := .done, log := log } :=
  ⟨rfl, List.prefix_refl _, List.prefix_refl _⟩

theorem Steady.finish {session : Session} (steady : session.Steady) (atEnd : session.cursor = session.lines.length)
    (log : List LogEntry) : ({ session with phase := .done, log := log } : Session).Steady :=
  ⟨steady.inside, Or.inr rfl, fun _ => atEnd, steady.distinct, steady.ordered, steady.placed⟩

/-! ## Calls -/

/-- Steps work on as many lines as are left for them. -/
theorem worked_eq (session : Session) (count : Nat) :
    session.worked count = min count (session.lines.length - session.cursor) := by
  induction count generalizing session with
  | zero => simp [worked]
  | succ count ih =>
    by_cases more : session.cursor < session.lines.length
    · obtain ⟨line, outcome, log, -, -, stepped⟩ := step_inside more
      rw [worked, stepped]
      dsimp only
      rw [ih]
      simp only [after]
      omega
    · rw [worked, step_at_end (Nat.le_of_not_lt more)]
      dsimp only
      rw [ih]
      dsimp only
      omega

theorem run_at_end {session : Session} (atEnd : session.lines.length ≤ session.cursor) :
    ∃ log, session.run = .ok { session with phase := .done, log := log } := by
  have none : session.lines.length - session.cursor + 1 = 1 := by omega
  rw [run, none, advance, step_at_end atEnd]
  dsimp only [advance]
  rw [note_eq]
  exact ⟨_, rfl⟩

/-- A step leaves the session steady, with all it had before, and a session that is done as it is. -/
theorem Steady.step {session : Session} (steady : session.Steady) :
    ∃ more after, session.step = .ok (more, after) ∧ (more = true ↔ session.cursor < session.lines.length) ∧
      after.Steady ∧ session.Extends after ∧ after.cursor = session.cursor + session.worked 1 ∧
      (session.phase = .done → after = session) := by
  by_cases more : session.cursor < session.lines.length
  · obtain ⟨line, outcome, log, found, yields, stepped⟩ := step_inside more
    refine ⟨true, _, stepped, by simpa using more, ?_, ?_, ?_, ?_⟩
    · exact kept_steady session line outcome log found yields steady
    · exact kept_extends session session line outcome log found yields session.extends_self
    · rw [worked_eq]
      show session.cursor + 1 = _
      omega
    · intro done
      have ended := steady.ended done
      omega
  · have atEnd := Nat.le_of_not_lt more
    refine ⟨false, _, step_at_end atEnd, by simpa using atEnd, ?_, ?_, ?_, ?_⟩
    · exact steady.finish (Nat.le_antisymm steady.inside atEnd) session.log
    · exact session.extends_finish session.log
    · rw [worked_eq]
      dsimp only
      omega
    · intro done
      rw [← done]

theorem Steady.run {session : Session} (steady : session.Steady) :
    ∃ after, session.run = .ok after ∧ after.Steady ∧ session.Extends after ∧
      after.cursor = session.cursor + session.worked (session.lines.length - session.cursor + 1) ∧
      (session.phase = .done → after = { session with log := after.log }) := by
  -- Being done, the session finds no line and stays as it is; else `run_to_end` applies.
  by_cases done : session.phase = .done
  · have atEnd := steady.ended done
    obtain ⟨log, ran⟩ := run_at_end (Nat.le_of_eq atEnd.symm)
    refine ⟨_, ran, steady.finish atEnd log, session.extends_finish log, ?_, ?_⟩
    · rw [worked_eq]
      dsimp only
      omega
    · intro _
      rw [← done]
  · obtain ⟨last, log, ran, ⟨steadyLast, extended⟩, sameLines, behind⟩ :=
      run_to_end (kept_steady.and (kept_extends session)) ⟨steady, session.extends_self⟩ steady.inside
    refine ⟨_, ran, steadyLast.finish behind log, ⟨extended.lines, extended.bindings, extended.events⟩, ?_, ?_⟩
    · have inside := steady.inside
      rw [worked_eq]
      dsimp only
      rw [behind, sameLines]
      omega
    · intro isDone
      exact absurd isDone done

theorem Steady.call {session : Session} (steady : session.Steady) (call : Call) :
    ∃ after, call.answer session = .ok after ∧ after.Steady ∧ session.Extends after ∧
      after.cursor = session.cursor + session.worked (call.steps session) ∧
      (session.phase = .done → after = { session with log := after.log }) := by
  cases call with
  | step =>
    obtain ⟨more, after, stepped, -, steadyAfter, extended, behind, unchanged⟩ := steady.step
    refine ⟨after, ?_, steadyAfter, extended, behind, ?_⟩
    · rw [Call.answer, stepped]
      rfl
    · intro done
      rw [unchanged done]
  | run => exact steady.run

/-- What lines and the end of a run keep is kept by a call. -/
theorem Steady.call_keeps {holds : Session → Prop} (kept : Kept fun session => session.Steady ∧ holds session)
    (ended : ∀ (session : Session) log, holds session → holds { session with phase := .done, log := log })
    {session after : Session} (steady : session.Steady) (first : holds session) {call : Call}
    (answered : call.answer session = .ok after) : holds after := by
  cases call with
  | step =>
    by_cases more : session.cursor < session.lines.length
    · obtain ⟨line, outcome, log, found, yields, stepped⟩ := step_inside more
      rw [Call.answer, stepped] at answered
      cases answered
      exact (kept session line outcome log found yields ⟨steady, first⟩).2
    · rw [Call.answer, step_at_end (Nat.le_of_not_lt more)] at answered
      cases answered
      exact ended session session.log first
  | run =>
    obtain ⟨last, log, ran, ⟨-, reached⟩, -⟩ := run_to_end kept ⟨steady, first⟩ steady.inside
    rw [Call.answer, ran] at answered
    cases answered
    exact ended last log reached

/-- What lines and the end of a run keep holds behind every history of calls. -/
theorem Steady.answer_keeps {holds : Session → Prop} (kept : Kept fun session => session.Steady ∧ holds session)
    (ended : ∀ (session : Session) log, holds session → holds { session with phase := .done, log := log })
    {session : Session} (steady : session.Steady) (first : holds session) (history : List Call) :
    ∃ count last, session.answer history = .ok (count, last) ∧ last.Steady ∧ holds last ∧
      last.lines = session.lines ∧ last.cursor = session.cursor + count := by
  induction history generalizing session with
  | nil => exact ⟨0, session, rfl, steady, first, rfl, rfl⟩
  | cons call rest ih =>
    obtain ⟨after, answered, steadyAfter, extended, behind, -⟩ := steady.call call
    have next : holds after := steady.call_keeps kept ended first answered
    obtain ⟨count, last, answeredRest, steadyLast, reached, sameLines, behindRest⟩ := ih steadyAfter next
    refine ⟨session.worked (call.steps session) + count, last, ?_, steadyLast, reached, sameLines.trans extended.lines, ?_⟩
    · rw [Session.answer, answered]
      simp only [bind, Except.bind, answeredRest]
      rfl
    · rw [behindRest, behind, Nat.add_assoc]

theorem Steady.answer {session : Session} (steady : session.Steady) (history : List Call) :
    ∃ count last, session.answer history = .ok (count, last) ∧ last.Steady ∧ last.lines = session.lines ∧
      last.cursor = session.cursor + count := by
  have kept : Kept fun session => session.Steady ∧ True := kept_steady.and fun _ _ _ _ _ _ _ => trivial
  obtain ⟨count, last, answered, steadyLast, -, sameLines, behind⟩ :=
    steady.answer_keeps kept (fun _ _ _ => trivial) trivial history
  exact ⟨count, last, answered, steadyLast, sameLines, behind⟩

/-- A session over a source is steady behind every history of calls, and its cursor counts the lines
    that these worked on. A further call keeps all that is bound and told, and when the session is
    done it changes at most what is written down. -/
theorem answer_steady (verbose : Bool) (source : Text) (history : List Call) :
    ∃ count session, (start verbose source).answer history = .ok (count, session) ∧
      session.lines = Lines.ofText source ∧ session.Steady ∧ session.cursor = count ∧
      (∃ more after, session.step = .ok (more, after) ∧ (more = true ↔ session.cursor < session.lines.length)) ∧
      ∀ call : Call, ∃ after, call.answer session = .ok after ∧ session.Extends after ∧
        (session.phase = .done → after = { session with log := after.log }) := by
  obtain ⟨count, session, answered, steady, sameLines, behind⟩ := (steady_start verbose source).answer history
  refine ⟨count, session, answered, sameLines, steady, ?_, ?_, ?_⟩
  · rw [behind]
    exact Nat.zero_add count
  · obtain ⟨more, after, stepped, told, -⟩ := steady.step
    exact ⟨more, after, stepped, told⟩
  · intro call
    obtain ⟨after, answeredCall, -, extended, -, unchanged⟩ := steady.call call
    exact ⟨after, answeredCall, extended, unchanged⟩

end Session
end LineCalc
