import LineCalc.Service
import LineCalc.Proofs.Frame
import LineCalc.Proofs.History
import LineCalc.Proofs.Layout
import Mathlib.Data.List.Pairwise

/-!
The fields of an answer beside each other. The errors and the results of a run are its events told
apart, and in the order of their lines they are its events again (`Report.merge_records`). Every
line is a comment, is told of or binds a name (`Account.binding?_iff`).
-/
namespace LineCalc

/-- An event of a line that does not stand behind the line of another event. -/
def Event.precedes (first second : Event) : Bool := first.lineNumber ≤ second.lineNumber

namespace Service.ExecuteAnswer

def events (answer : ExecuteAnswer) : List Event :=
  (answer.errors.map Event.failed).merge (answer.results.map Event.valued) Event.precedes

/-- An answer lists the line of a number, under its errors or under its results. -/
def Lists (answer : ExecuteAnswer) (number : Int) : Prop :=
  (∃ record ∈ answer.errors, record.lineNumber = number) ∨ ∃ record ∈ answer.results, record.lineNumber = number

instance (answer : ExecuteAnswer) (number : Int) : Decidable (answer.Lists number) :=
  inferInstanceAs (Decidable (_ ∨ _))

/-- What the fields of an answer to a request have to do with each other. -/
structure Consistent (answer : ExecuteAnswer) (request : ExecuteRequest) : Prop where
  errors : answer.errors.Pairwise fun first second => first.lineNumber < second.lineNumber
  results : answer.results.Pairwise fun first second => first.lineNumber < second.lineNumber
  apart : ∀ error ∈ answer.errors, ∀ result ∈ answer.results, error.lineNumber ≠ result.lineNumber
  output : answer.output = (if request.banner then "executing...\n".toList else []) ++
    answer.events.flatMap Event.text ++ (if request.banner then "done!\n\n".toList else [])
  success : answer.success = true ↔ answer.errors = []
  errorCount : answer.errorCount = answer.errors.length
  distinct : (answer.bindings.map Prod.fst).Nodup
  bindings : answer.bindings.length = (Lines.numbered (Lines.ofText request.source)).countP fun (number, line) =>
    ¬ Statement.isComment line ∧ ¬ answer.Lists number

end Service.ExecuteAnswer

/-! ## Errors and results -/

theorem Event.error?_eq_some_iff {event : Event} {record : ErrorRecord} :
    event.error? = some record ↔ event = failed record := by
  cases event <;> simp [error?]

theorem Event.result?_eq_some_iff {event : Event} {record : ResultRecord} :
    event.result? = some record ↔ event = valued record := by
  cases event <;> simp [result?]

namespace Report

variable {report : Report}

theorem mem_errors {record : ErrorRecord} : record ∈ report.errors ↔ Event.failed record ∈ report.events := by
  simp [errors, Event.error?_eq_some_iff]

theorem mem_results {record : ResultRecord} : record ∈ report.results ↔ Event.valued record ∈ report.events := by
  simp [results, Event.result?_eq_some_iff]

theorem eventsOf_eq_nil_iff {number : Int} : report.eventsOf number = [] ↔
    ¬ ((∃ record ∈ report.errors, record.lineNumber = number) ∨ ∃ record ∈ report.results, record.lineNumber = number) := by
  simp only [eventsOf, List.filter_eq_nil_iff, decide_eq_true_eq, not_or, not_exists, not_and]
  constructor
  · intro silent
    exact ⟨fun record member => silent _ (mem_errors.mp member), fun record member => silent _ (mem_results.mp member)⟩
  · rintro ⟨noError, noResult⟩ event member
    cases event with
    | failed record => exact noError record (mem_errors.mpr member)
    | valued record => exact noResult record (mem_results.mpr member)

section
variable (ordered : report.events.Pairwise fun first second => first.lineNumber < second.lineNumber)
include ordered

theorem picked_ordered {α : Type} {pick : Event → Option α} {number : α → Int}
    (same : ∀ {event record}, pick event = some record → number record = event.lineNumber) :
    (report.events.filterMap pick).Pairwise fun first second => number first < number second := by
  refine List.Pairwise.filterMap pick ?_ ordered
  intro first second before record found other foundOther
  rwa [same found, same foundOther]

theorem errors_ordered : report.errors.Pairwise fun first second => first.lineNumber < second.lineNumber := by
  refine picked_ordered ordered ?_
  intro event record found
  rw [Event.error?_eq_some_iff.mp found]
  rfl

theorem results_ordered : report.results.Pairwise fun first second => first.lineNumber < second.lineNumber := by
  refine picked_ordered ordered ?_
  intro event record found
  rw [Event.result?_eq_some_iff.mp found]
  rfl

theorem errors_apart : ∀ error ∈ report.errors, ∀ result ∈ report.results, error.lineNumber ≠ result.lineNumber := by
  have symmetric : Std.Symm fun first second : Event => first.lineNumber ≠ second.lineNumber := ⟨fun _ _ => Ne.symm⟩
  have apart := (ordered.imp Int.ne_of_lt).forall
  intro error inErrors result inResults
  exact apart (mem_errors.mp inErrors) (mem_results.mp inResults) (by simp)

end

theorem merge_cons_left {first : Event} {firsts others : List Event}
    (below : ∀ other ∈ others, first.lineNumber < other.lineNumber) :
    (first :: firsts).merge others Event.precedes = first :: firsts.merge others Event.precedes := by
  cases others with
  | nil => rw [List.merge_right, List.merge_right]
  | cons other others =>
    have before := below other List.mem_cons_self
    exact List.cons_merge_cons_pos _ _ _ (decide_eq_true (Int.le_of_lt before))

theorem merge_cons_right {second : Event} {others seconds : List Event}
    (below : ∀ other ∈ others, second.lineNumber < other.lineNumber) :
    others.merge (second :: seconds) Event.precedes = second :: others.merge seconds Event.precedes := by
  cases others with
  | nil => rw [List.nil_merge, List.nil_merge]
  | cons other others =>
    have before := below other List.mem_cons_self
    exact List.cons_merge_cons_neg _ _ _ (by simpa [Event.precedes] using before)

/-- The errors and the results, merged by their lines, are the events. -/
theorem merge_records (ordered : report.events.Pairwise fun first second => first.lineNumber < second.lineNumber) :
    (report.errors.map Event.failed).merge (report.results.map Event.valued) Event.precedes = report.events := by
  obtain ⟨events⟩ := report
  induction events with
  | nil => exact List.nil_merge _
  | cons event rest ih =>
    obtain ⟨first, later⟩ := List.pairwise_cons.mp ordered
    have behind := ih later
    -- The first event heads its own part, and all of the other part stands behind it.
    cases event with
    | failed record =>
      have below : ∀ other ∈ (Report.results ⟨rest⟩).map Event.valued, record.lineNumber < other.lineNumber := by
        intro other member
        obtain ⟨result, listed, rfl⟩ := List.mem_map.mp member
        exact first _ (mem_results.mp listed)
      exact (merge_cons_left below).trans (congrArg _ behind)
    | valued record =>
      have below : ∀ other ∈ (Report.errors ⟨rest⟩).map Event.failed, record.lineNumber < other.lineNumber := by
        intro other member
        obtain ⟨error, listed, rfl⟩ := List.mem_map.mp member
        exact first _ (mem_errors.mp listed)
      exact (merge_cons_right below).trans (congrArg _ behind)

end Report

/-! ## Bindings -/

namespace Account

/-- A line that is no comment either binds a name or is told of. -/
theorem binding?_iff (earlier : List Text) (line : Text) :
    (binding? earlier line).isSome = true ↔ ¬ Statement.isComment line ∧ event? earlier line = none := by
  obtain ⟨outcome, yields⟩ := exists_yields ⟨bindings earlier⟩ line
  obtain ⟨binds, tells⟩ := yields_account yields
  have comment : Statement.isComment line = true ↔ Statement.ofLine line = .ok (.comment line) := by
    simp [Statement.ofLine_eq_comment_iff]
  have bound : (binding? earlier line).isSome = true ↔ outcome.bindings ≠ [] := by
    rw [binds]
    cases binding? earlier line <;> simp
  have silent : event? earlier line = none ↔ outcome.events (earlier.length + 1) line = [] := by
    rw [tells, Option.toList_eq_nil_iff]
  rw [comment, bound, silent]
  cases yields <;> simp [Outcome.bindings, Outcome.events, *]

theorem length_bindings (lines : List Text) : (bindings lines).length = (Lines.numbered lines).countP fun (number, line) =>
    ¬ Statement.isComment line ∧ Report.eventsOf ⟨events lines⟩ number = [] := by
  rw [bindings, collect, List.length_filterMap_eq_countP, Lines.numbered, List.countP_map, List.zipIdx_succ, List.countP_map]
  refine List.countP_congr ?_
  rintro ⟨line, index⟩ member
  have found : lines[index]? = some line := List.mem_zipIdx_iff_getElem?.mp member
  have told := eventsOf_events lines index
  rw [found, Option.bind_some] at told
  simp only [Function.comp_apply, decide_eq_true_eq, binding?_iff]
  rw [Int.natCast_succ, told, Option.toList_eq_nil_iff]

end Account

namespace Service

/-- Every request is answered, and the fields of the answer are consistent. -/
theorem execute_consistent (request : ExecuteRequest) :
    ∃ answer, execute request = .ok answer ∧ answer.Consistent request := by
  obtain ⟨run, processed, ran, text⟩ := Transcript.exists_process request.banner false request.source
  obtain ⟨last, ranLast, steady, -⟩ := (Session.steady_start false request.source).run
  cases ran.symm.trans ranLast
  obtain ⟨last, ranLast, -, environment, report⟩ := Account.run_accounts false request.source
  cases ran.symm.trans ranLast
  have ordered := steady.ordered
  have named : run.session.environment.snapshot.map Prod.fst = run.session.environment.names := by
    rw [Environment.snapshot, List.map_map]
    rfl
  refine ⟨_, by rw [execute, processed], Report.errors_ordered ordered, Report.results_ordered ordered,
    Report.errors_apart ordered, ?_, List.isEmpty_iff, rfl, ?_, ?_⟩
  · show run.pieces.flatten = _
    rw [text, ExecuteAnswer.events, Report.merge_records ordered]
  · show (run.session.environment.snapshot.map Prod.fst).Nodup
    rw [named]
    exact steady.distinct
  · show run.session.environment.snapshot.length = _
    rw [Environment.snapshot, List.length_map, environment, Account.length_bindings, ← report]
    refine List.countP_congr fun entry _ => ?_
    rw [decide_eq_true_eq, decide_eq_true_eq]
    exact and_congr_right fun _ => Report.eventsOf_eq_nil_iff

end Service
end LineCalc
