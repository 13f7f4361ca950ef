import LineCalc.Proofs.Step
import Mathlib.Data.List.Basic
import Mathlib.Data.List.Induction

/-!
What a run comes to, told of its lines alone. A line binds a name when it is the first that
assigns a numeral to it (`Account.binding?`), and what is told of a line depends on the line and
the bindings of the lines before it (`Account.event?`).
-/
namespace LineCalc.Account
open Numeral

/-- The name and the integer of a line that assigns a numeral. -/
def numeral? (line : Text) : Option (Text × Int) :=
  match Statement.ofLine line with
  | .ok (.assignment name valueText _) => if IsNumeral valueText then some (name, integerOf valueText) else none
  | _ => none

/-- The integer that the first of the lines with a numeral for a name assigns to it. -/
def firstValue? (name : Text) (lines : List Text) : Option Int := (lines.filterMap numeral?).lookup name

/-- The binding of a line behind earlier lines. -/
def binding? (earlier : List Text) (line : Text) : Option (Text × Int) :=
  match numeral? line with
  | some (name, value) => if firstValue? name earlier = none then some (name, value) else none
  | none => none

/-- What each of the lines gives behind the lines before it, in their order. -/
def collect {α : Type} (give : List Text → Text → Option α) (lines : List Text) : List α :=
  lines.zipIdx.filterMap fun (line, index) => give (lines.take index) line

/-- The bindings of the lines. -/
def bindings (lines : List Text) : List (Text × Int) := collect binding? lines

/-- What is told of a line behind earlier lines. -/
def event? (earlier : List Text) (line : Text) : Option Event :=
  let number := earlier.length + 1
  match Statement.ofLine line with
  | .ok (.comment _) => none
  | .ok (.assignment name valueText _) =>
    if IsNumeral valueText then
      (firstValue? name earlier).map fun first => .failed
        ⟨number, line, .redefinition, "variable redefinition: ".toList ++ name, some ("actual: ".toList ++ decimal first)⟩
    else some (.failed ⟨number, line, .numberFormat, "invalid value: \"".toList ++ valueText ++ ['"'], none⟩)
  | .ok (.expression tree) =>
    match tree.evaluate ⟨bindings earlier⟩ with
    | .ok value => some (.valued ⟨number, line, value⟩)
    | .error (.line error) => some (.ofError number line error)
    | .error _ => none
  | .error (.line error) => some (.ofError number line error)
  | .ok .unsupported | .error _ => none

/-- What is told of the lines. -/
def events (lines : List Text) : List Event := collect event? lines

/-! ## One more line -/

theorem take_next {lines : List Text} {index : Nat} {line : Text} (found : lines[index]? = some line) :
    lines.take (index + 1) = lines.take index ++ [line] := by
  rw [List.take_add_one, found]
  rfl

theorem collect_append_singleton {α : Type} (give : List Text → Text → Option α) (lines : List Text) (line : Text) :
    collect give (lines ++ [line]) = collect give lines ++ (give lines line).toList := by
  have before : lines.zipIdx.filterMap (fun (other, index) => give ((lines ++ [line]).take index) other) =
      collect give lines := by
    refine List.filterMap_congr ?_
    rintro ⟨other, index⟩ member
    have inside : index < lines.length := by simpa using List.snd_lt_of_mem_zipIdx member
    dsimp only
    rw [List.take_append_of_le_length (Nat.le_of_lt inside)]
  rw [collect, List.zipIdx_append, List.filterMap_append, before]
  cases given : give lines line <;> simp [given]

theorem firstValue?_append (name : Text) (lines more : List Text) :
    firstValue? name (lines ++ more) = (firstValue? name lines).or (firstValue? name more) := by
  rw [firstValue?, List.filterMap_append, List.lookup_append]
  rfl

theorem firstValue?_singleton (name line : Text) : firstValue? name [line] = (numeral? line).toList.lookup name := by
  cases assigned : numeral? line <;> simp [firstValue?, assigned]

theorem firstValue?_append_singleton (name : Text) (lines : List Text) (line : Text) :
    firstValue? name (lines ++ [line]) = (firstValue? name lines).or ((numeral? line).toList.lookup name) := by
  rw [firstValue?_append, firstValue?_singleton]

/-- A name is bound to the first numeral that is assigned to it. -/
theorem lookup?_bindings (lines : List Text) (name : Text) :
    Environment.lookup? ⟨bindings lines⟩ name = firstValue? name lines := by
  induction lines using List.reverseRecOn with
  | nil => rfl
  | append_singleton lines line ih =>
    rw [bindings, collect_append_singleton, ← bindings, Environment.lookup?_append, ih, firstValue?_append_singleton]
    unfold binding?
    cases numeral? line with
    | none => rfl
    | some binding =>
      obtain ⟨other, value⟩ := binding
      dsimp only
      by_cases unknown : firstValue? other lines = none
      · rw [if_pos unknown]
        rfl
      · rw [if_neg unknown]
        obtain ⟨first, known⟩ := Option.ne_none_iff_exists'.mp unknown
        -- The line binds nothing, and an earlier one decides the value of its name.
        by_cases same : name = other
        · rw [same, known]
          rfl
        · have differs : (name == other) = false := beq_eq_false_iff_ne.mpr same
          simp [Environment.lookup?, List.lookup_cons, differs]

theorem yields_account {earlier : List Text} {line : Text} {outcome : Outcome}
    (yields : Yields ⟨bindings earlier⟩ line outcome) :
    outcome.bindings = (binding? earlier line).toList ∧
      outcome.events (earlier.length + 1) line = (event? earlier line).toList := by
  cases yields with
  | comment accepted | rejected accepted | value accepted evaluated | noValue accepted evaluated =>
    simp only [binding?, numeral?, event?, *]
    exact ⟨rfl, rfl⟩
  | noNumeral accepted numeral =>
    simp only [binding?, numeral?, event?, accepted, if_neg numeral]
    exact ⟨rfl, rfl⟩
  | redefinition accepted numeral bound =>
    rw [lookup?_bindings] at bound
    simp only [binding?, numeral?, event?, accepted, if_pos numeral, bound, ← print_eq_decimal]
    exact ⟨rfl, rfl⟩
  | binding accepted numeral bound =>
    rw [lookup?_bindings] at bound
    simp only [binding?, numeral?, event?, accepted, if_pos numeral, bound]
    exact ⟨rfl, rfl⟩

/-- The session has the bindings and the events of the lines before its cursor. -/
structure Accounts (session : Session) : Prop where
  inside : session.cursor ≤ session.lines.length
  bindings : session.environment.bindings = bindings (session.lines.take session.cursor)
  events : session.report.events = events (session.lines.take session.cursor)

theorem kept_accounts : Session.Kept Accounts := by
  intro session line outcome log found yields accounts
  obtain ⟨more, -⟩ := List.getElem?_eq_some_iff.mp found
  have next := take_next found
  have same : session.environment = ⟨Account.bindings (session.lines.take session.cursor)⟩ :=
    congrArg Environment.mk accounts.bindings
  rw [same] at yields
  obtain ⟨binds, tells⟩ := yields_account yields
  rw [List.length_take_of_le (Nat.le_of_lt more)] at tells
  refine ⟨more, ?_, ?_⟩
  · show session.environment.bindings ++ outcome.bindings = Account.bindings (session.lines.take (session.cursor + 1))
    rw [next, accounts.bindings, binds, Account.bindings, Account.bindings, collect_append_singleton]
  · show session.report.events ++ outcome.events (session.cursor + 1) line =
      Account.events (session.lines.take (session.cursor + 1))
    rw [next, accounts.events, tells, Account.events, Account.events, collect_append_singleton]

theorem accounts_start (verbose : Bool) (source : Text) : Accounts (Session.start verbose source) :=
  ⟨Nat.zero_le _, rfl, rfl⟩

theorem advance_accounts (verbose : Bool) {source : Text} {count : Nat} (inside : count ≤ (Lines.ofText source).length) :
    ∃ session, Session.advance count (Session.start verbose source) = .ok session ∧ Accounts session ∧
      session.lines = Lines.ofText source ∧ session.cursor = count := by
  have within : (Session.start verbose source).cursor + count ≤ (Session.start verbose source).lines.length := by
    simpa [Session.start] using inside
  obtain ⟨session, advanced, accounts, sameLines, behind⟩ :=
    Session.advance_within kept_accounts (accounts_start verbose source) within
  exact ⟨session, advanced, accounts, sameLines, by simpa [Session.start] using behind⟩

theorem advance_start (verbose : Bool) {source : Text} {count : Nat} (inside : count ≤ (Lines.ofText source).length) :
    ∃ session, Session.advance count (Session.start verbose source) = .ok session ∧
      session.lines = Lines.ofText source ∧ session.cursor = count ∧
      session.environment = ⟨bindings ((Lines.ofText source).take count)⟩ := by
  obtain ⟨session, advanced, accounts, sameLines, cursor⟩ := advance_accounts verbose inside
  refine ⟨session, advanced, sameLines, cursor, ?_⟩
  have known := accounts.bindings
  rw [cursor, sameLines] at known
  exact congrArg Environment.mk known

/-- A run over a source leads behind its lines, with their bindings and events. -/
theorem run_accounts (verbose : Bool) (source : Text) :
    ∃ last, (Session.start verbose source).run = .ok last ∧ last.lines = Lines.ofText source ∧
      last.environment = ⟨bindings (Lines.ofText source)⟩ ∧ last.report = ⟨events (Lines.ofText source)⟩ := by
  obtain ⟨last, log, ran, accounts, sameLines, atEnd⟩ :=
    Session.run_to_end kept_accounts (accounts_start verbose source) (Nat.zero_le _)
  have allLines : last.lines.take last.cursor = Lines.ofText source := by
    rw [atEnd, List.take_length, sameLines]
    rfl
  have bound := accounts.bindings
  have told := accounts.events
  rw [allLines] at bound told
  exact ⟨_, ran, sameLines, congrArg Environment.mk bound, congrArg Report.mk told⟩

theorem success_iff (report : Report) : report.success = true ↔ ∀ event ∈ report.events, event.error? = none := by
  rw [Report.success, Report.errors, List.isEmpty_iff, List.filterMap_eq_nil_iff]

/-- A run ends with the bindings and the events of the lines of its source, and succeeds when
    no event is an error. What refuses a line is a lexical or a syntactic error. -/
theorem run_start (verbose : Bool) (source : Text) :
    ∃ session, (Session.start verbose source).run = .ok session ∧
      session.environment.bindings = bindings (Lines.ofText source) ∧
      session.report.events = events (Lines.ofText source) ∧
      (session.report.success = true ↔ ∀ event ∈ session.report.events, event.error? = none) ∧
      ∀ line ∈ Lines.ofText source, ∀ failure, Statement.ofLine line = .error failure →
        ∃ error : LineError, failure = .line error ∧ (error.kind = .lexical ∨ error.kind = .syntactic) := by
  have first : Accounts (Session.start verbose source) := ⟨Nat.zero_le _, rfl, rfl⟩
  obtain ⟨last, log, ran, accounts, sameLines, atEnd⟩ := Session.run_to_end kept_accounts first first.inside
  have allLines : last.lines.take last.cursor = Lines.ofText source := by
    rw [atEnd, List.take_length, sameLines]
    rfl
  refine ⟨_, ran, ?_, ?_, success_iff _, ?_⟩
  · rw [← allLines]
    exact accounts.bindings
  · rw [← allLines]
    exact accounts.events
  · rintro line - failure refused
    exact Statement.ofLine_error refused

end LineCalc.Account
