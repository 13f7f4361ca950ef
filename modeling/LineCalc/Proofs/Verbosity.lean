import LineCalc.CommandLine
import LineCalc.Proofs.Layout

/-!
Runs with a log. A verbose session renders each expression before it tells the value, and writes
down what it does; but for the log it is like a silent one, step by step (`Session.Alike.step`).
The switch for the log changes nothing else among the arguments, wherever they lead
(`Options.interpret_verbose`).
-/
namespace LineCalc

/-! ## Sessions -/

namespace Session

/-- Sessions that are the same but for the log. -/
structure Alike (first second : Session) : Prop where
  lines : first.lines = second.lines
  cursor : first.cursor = second.cursor
  environment : first.environment = second.environment
  report : first.report = second.report
  phase : first.phase = second.phase
  notices : first.notices = second.notices

theorem executeLine_verbose {session : Session} (verbose : session.verbose = true) {line : Text} {tree : Expr}
    (accepted : Statement.ofLine line = .ok (.expression tree)) {value : Int}
    (evaluated : tree.evaluate session.environment = .ok value) :
    ∃ rendered, tree.render = .ok rendered ∧
      session.executeLine line = (({ session with
        phase := .evaluating
        log := session.log ++ [.evaluated session.cursor rendered value] } : Session).announceResult line value,
        none) := by
  obtain ⟨rendered, text⟩ := Expr.exists_render_of_evaluate evaluated
  refine ⟨rendered, text, ?_⟩
  simp only [executeLine, accepted, execute, evaluated, text, note, if_pos verbose]

namespace Alike

variable {first second : Session} (alike : first.Alike second)
include alike

theorem after (line : Text) (outcome : Outcome) (log otherLog : List LogEntry) :
    (first.after line outcome log).Alike (second.after line outcome otherLog) where
  lines := alike.lines
  cursor := by simp only [Session.after, alike.cursor]
  environment := by simp only [Session.after, alike.environment]
  report := by simp only [Session.after, alike.report, alike.cursor]
  phase := rfl
  notices := by simp only [Session.after, phaseOf, alike.notices, alike.cursor, alike.phase]

theorem done : Alike { first with phase := .done } { second with phase := .done } :=
  ⟨alike.lines, alike.cursor, alike.environment, alike.report, rfl, alike.notices⟩

theorem note (entry otherEntry : LogEntry) : (first.note entry).Alike (second.note otherEntry) := by
  rw [note_eq, note_eq second]
  exact ⟨alike.lines, alike.cursor, alike.environment, alike.report, alike.phase, alike.notices⟩

/-- A step keeps sessions alike: it is the same for both. -/
theorem step : ∃ worked behindFirst behindSecond, first.step = .ok (worked, behindFirst) ∧
    second.step = .ok (worked, behindSecond) ∧ behindFirst.Alike behindSecond := by
  by_cases more : first.cursor < first.lines.length
  · obtain ⟨line, outcome, log, found, yields, stepped⟩ := step_inside more
    rw [alike.lines, alike.cursor] at found
    rw [alike.environment] at yields
    obtain ⟨otherLog, otherStepped⟩ := step_of_yields found yields
    exact ⟨true, _, _, stepped, otherStepped, alike.after line outcome log otherLog⟩
  · have atEnd := Nat.le_of_not_lt more
    have otherAtEnd : second.lines.length ≤ second.cursor := by rwa [← alike.lines, ← alike.cursor]
    exact ⟨false, _, _, step_at_end atEnd, step_at_end otherAtEnd, alike.done⟩

omit alike in
theorem advance {first second : Session} (alike : first.Alike second) (count : Nat) :
    ∃ behindFirst behindSecond, Session.advance count first = .ok behindFirst ∧
      Session.advance count second = .ok behindSecond ∧ behindFirst.Alike behindSecond := by
  induction count generalizing first second with
  | zero => exact ⟨first, second, rfl, rfl, alike⟩
  | succ count ih =>
    obtain ⟨worked, nextFirst, nextSecond, stepped, otherStepped, next⟩ := alike.step
    obtain ⟨behindFirst, behindSecond, advanced, otherAdvanced, behind⟩ := ih next
    refine ⟨behindFirst, behindSecond, ?_, ?_, behind⟩
    · rw [Session.advance, stepped]
      exact advanced
    · rw [Session.advance, otherStepped]
      exact otherAdvanced

theorem run : ∃ behindFirst behindSecond, first.run = .ok behindFirst ∧ second.run = .ok behindSecond ∧
    behindFirst.Alike behindSecond := by
  obtain ⟨behindFirst, behindSecond, advanced, otherAdvanced, behind⟩ :=
    alike.advance (first.lines.length - first.cursor + 1)
  rw [Session.run, Session.run, ← alike.lines, ← alike.cursor, advanced, otherAdvanced]
  exact ⟨_, _, rfl, rfl, behind.note _ _⟩

end Alike

end Session

namespace Transcript

theorem ofSession_of_process {banner verbose : Bool} {source : Text} {run : Run}
    (processed : process banner verbose source = .ok run) : ofSession banner run.session = .ok run.pieces := by
  rw [process] at processed
  split at processed
  · cases processed
  next session _ =>
    split at processed
    · cases processed
    next pieces written =>
      cases processed
      exact written

theorem process_alike (banner : Bool) (source : Text) :
    ∃ loud silent, process banner true source = .ok loud ∧ process banner false source = .ok silent ∧
      loud.pieces = silent.pieces ∧ loud.session.Alike silent.session := by
  obtain ⟨loud, processed, ran, -⟩ := exists_process banner true source
  obtain ⟨silent, otherProcessed, otherRan, -⟩ := exists_process banner false source
  have starts : (Session.start true source).Alike (Session.start false source) := ⟨rfl, rfl, rfl, rfl, rfl, rfl⟩
  obtain ⟨behindLoud, behindSilent, loudRan, silentRan, behind⟩ := starts.run
  cases ran.symm.trans loudRan
  cases otherRan.symm.trans silentRan
  refine ⟨loud, silent, processed, otherProcessed, ?_, behind⟩
  have written := ofSession_of_process processed
  have otherWritten := ofSession_of_process otherProcessed
  rw [ofSession, behind.notices, ← ofSession] at written
  exact Except.ok.inj (written.symm.trans otherWritten)

end Transcript

/-! ## Arguments -/

namespace Options

def Request.loud : Request → Request
  | .run settings => .run { settings with verbose := true }
  | .help => .help
  | .version => .version
  | .misuse cause => .misuse cause

def Progress.loud (progress : Progress) : Progress := { progress with verbose := true }

/-- What arguments have come to, with the log turned on. -/
def loud : Except Request Progress → Except Request Progress
  | .error request => .error request.loud
  | .ok progress => .ok progress.loud

namespace Progress

theorem turnOn_loud (progress : Progress) (switches : List Switch) :
    progress.loud.turnOn switches = Options.loud (progress.turnOn switches) := by
  induction switches generalizing progress with
  | nil => rfl
  | cons switch rest ih =>
    cases switch with
    | help | version => rfl
    | quiet => exact ih { progress with quiet := true }
    | verbose => exact ih { progress with verbose := true }
    | languageHelp => exact ih { progress with languageHelp := true }

theorem take_loud (progress : Progress) (item : Item) : progress.loud.take item = Options.loud (progress.take item) := by
  cases item with
  | name argument =>
    obtain ⟨_, _, _, source, _, _⟩ := progress
    cases source <;> rfl
  | mark =>
    obtain ⟨_, _, _, source, _, atSource⟩ := progress
    cases source <;> cases atSource <;> rfl
  | unknown argument => rfl
  | switch recognised =>
    simp only [take]
    cases unbundle recognised.spelling recognised.switch recognised.value with
    | error misuse => rfl
    | ok switches => exact turnOn_loud { progress with atSource := false } switches

theorem takeAll_loud (progress : Progress) (items : List Item) :
    progress.loud.takeAll items = Options.loud (progress.takeAll items) := by
  induction items generalizing progress with
  | nil => rfl
  | cons item rest ih =>
    rw [takeAll, takeAll, take_loud]
    cases progress.take item with
    | error request => rfl
    | ok after => exact ih after

theorem finish_loud (progress : Progress) : progress.loud.finish = progress.finish.loud := by
  obtain ⟨_, _, _, _, leftOver, _⟩ := progress
  cases leftOver <;> rfl

end Progress

/-- The switch in front of any arguments turns the log on and changes nothing else. -/
theorem interpret_verbose {spelling : Text} (isSwitch : spelling ∈ ["-v".toList, "--verbose".toList])
    (arguments : List Text) : interpret (spelling :: arguments) = (interpret arguments).loud := by
  have noMark : spelling ≠ ['-', '-'] := by
    rintro rfl
    exact absurd isSwitch (by decide)
  have one : classifyOne spelling = .ok (.switch ⟨spelling, .verbose, none⟩) := by
    rcases List.mem_pair.mp isSwitch with rfl | rfl <;> rfl
  have switched : Progress.start.take (.switch ⟨spelling, .verbose, none⟩) = .ok Progress.start.loud := by
    simp only [Progress.take, unbundle]
    rfl
  rw [interpret, interpret, classify, if_neg noMark, one]
  cases classify arguments with
  | error misuse => rfl
  | ok items =>
    show (match Progress.start.takeAll (.switch ⟨spelling, .verbose, none⟩ :: items) with
      | .error request => request
      | .ok progress => progress.finish) = _
    rw [Progress.takeAll, switched]
    dsimp only
    rw [Progress.takeAll_loud]
    cases Progress.start.takeAll items with
    | error request => rfl
    | ok progress => exact progress.finish_loud

end Options

/-! ## The program -/

namespace CommandLine
open Options

/-- Outcomes that are the same but for the log. -/
structure Outcome.Alike (first second : Outcome) : Prop where
  output : first.output = second.output
  complaint : first.complaint = second.complaint
  ending : first.ending = second.ending

theorem Outcome.Alike.refl (outcome : Outcome) : outcome.Alike outcome := ⟨rfl, rfl, rfl⟩

variable (settings : Settings)

theorem runText_alike (source : Text) :
    (runText { settings with verbose := true } source).Alike (runText { settings with verbose := false } source) := by
  obtain ⟨loud, silent, processed, otherProcessed, samePieces, behind⟩ :=
    Transcript.process_alike (!settings.quiet) source
  rw [runText, runText, processed, otherProcessed]
  dsimp only
  exact ⟨congrArg List.flatten samePieces, rfl, by rw [behind.report]⟩

theorem runBytes_alike (bytes : ByteArray) :
    (runBytes { settings with verbose := true } bytes).Alike (runBytes { settings with verbose := false } bytes) := by
  rw [runBytes, runBytes]
  cases Text.decodeUtf8? bytes with
  | none => exact .refl _
  | some text => exact runText_alike settings _

theorem run_alike {arguments others : List Text} (silent : interpret arguments = .run { settings with verbose := false })
    (loud : interpret others = .run { settings with verbose := true }) (standardInput : ByteArray) (files : Files) :
    (run others standardInput files).Alike (run arguments standardInput files) := by
  rw [run, run, plan, plan, silent, loud]
  dsimp only
  by_cases help : settings.languageHelp = true
  · rw [if_pos help, if_pos help]
    exact .refl _
  rw [if_neg help, if_neg help]
  by_cases standard : settings.source = ['-']
  · rw [if_pos standard, if_pos standard]
    exact runBytes_alike settings standardInput
  rw [if_neg standard, if_neg standard]
  by_cases null : settings.source.contains '\x00' = true
  · rw [if_pos null, if_pos null]
    exact .refl _
  rw [if_neg null, if_neg null]
  dsimp only
  cases files.read settings.source with
  | error error => exact .refl _
  | ok bytes => exact runBytes_alike settings bytes

theorem run_switched {spelling : Text} (isSwitch : spelling ∈ ["-v".toList, "--verbose".toList]) (arguments : List Text)
    (standardInput : ByteArray) (files : Files) :
    (run (spelling :: arguments) standardInput files).Alike (run arguments standardInput files) := by
  have loud := interpret_verbose isSwitch arguments
  have unchanged (same : interpret (spelling :: arguments) = interpret arguments) :
      run (spelling :: arguments) standardInput files = run arguments standardInput files := by
    rw [run, run, plan, plan, same]
  cases asked : interpret arguments with
  | run settings =>
    rw [asked] at loud
    obtain ⟨source, quiet, verbose, languageHelp⟩ := settings
    cases verbose with
    | false => exact run_alike ⟨source, quiet, false, languageHelp⟩ asked loud standardInput files
    | true =>
      rw [unchanged (loud.trans asked.symm)]
      exact .refl _
  | help | version | misuse =>
    rw [asked] at loud
    rw [unchanged (loud.trans asked.symm)]
    exact .refl _

/-- The log is for observation only. Arguments that ask for the same run with the log and without it
    lead to the same output and the same ending, and so do any arguments with the switch in front.
    Over every source the verbose session has the same events in the same order, and on every line
    that has a value it renders the expression and then tells the value. -/
theorem run_verbose :
    (∀ (arguments others : List Text) (settings : Settings),
      interpret arguments = .run { settings with verbose := false } →
      interpret others = .run { settings with verbose := true } → ∀ standardInput files,
        (run others standardInput files).Alike (run arguments standardInput files)) ∧
    (∀ spelling ∈ ["-v".toList, "--verbose".toList], ∀ arguments standardInput files,
      (run (spelling :: arguments) standardInput files).Alike (run arguments standardInput files)) ∧
    (∀ source, ∃ loud silent, (Session.start true source).run = .ok loud ∧
      (Session.start false source).run = .ok silent ∧ loud.Alike silent) ∧
    ∀ (session : Session) line tree value, session.verbose = true →
      Statement.ofLine line = .ok (.expression tree) → tree.evaluate session.environment = .ok value →
      ∃ rendered, tree.render = .ok rendered ∧
        session.executeLine line = (({ session with
          phase := .evaluating
          log := session.log ++ [.evaluated session.cursor rendered value] } : Session).announceResult line value,
          none) := by
  refine ⟨fun arguments others settings silent loud => run_alike settings silent loud,
    fun spelling isSwitch => run_switched isSwitch, fun source => ?_,
    fun session line tree value verbose accepted evaluated => Session.executeLine_verbose verbose accepted evaluated⟩
  have starts : (Session.start true source).Alike (Session.start false source) := ⟨rfl, rfl, rfl, rfl, rfl, rfl⟩
  exact starts.run

end CommandLine
end LineCalc
