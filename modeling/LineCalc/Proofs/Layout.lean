import LineCalc.Proofs.Step
import LineCalc.Transcript

/-!
What a run writes, told of its report. A template puts in its arguments as they are, whatever
characters they hold (`Template.fill_plain`), so a transcript is the text of the reported events
between its banner lines.
-/
namespace LineCalc

namespace Template

/-- A text without percent signs stands for itself in a template. -/
theorem fill_plain {front : Text} (plain : '%' ∉ front) (rest : Text) (arguments : List Argument) :
    fill (front ++ rest) arguments = (fill rest arguments).map (front ++ ·) := by
  induction front with
  | nil => cases filled : fill rest arguments <;> simp [filled, Except.map]
  | cons c front ih =>
    have differs : c ≠ '%' := by
      rintro rfl
      exact plain List.mem_cons_self
    have behind := ih fun member => plain (List.mem_cons_of_mem _ member)
    have first : fill (c :: (front ++ rest)) arguments = (fill (front ++ rest) arguments).map (c :: ·) := by
      rw [fill.eq_def]
      simp [differs]
    rw [List.cons_append, first, behind]
    cases fill rest arguments <;> rfl

theorem fill_text (rest : Text) (argument : Argument) (arguments : List Argument) :
    fill ('%' :: 's' :: rest) (argument :: arguments) = (fill rest arguments).map (argument.print ++ ·) := rfl

theorem fill_number (rest : Text) (n : Int) (arguments : List Argument) :
    fill ('%' :: 'd' :: rest) (.number n :: arguments) = (fill rest arguments).map (Numeral.print n ++ ·) := rfl

end Template

/-- The text of an event: the block of an error, or the stripped line and its value. -/
def Event.text : Event → Text
  | failed record => record.block
  | valued record =>
    Text.strip Text.isBlank record.line ++ " = ".toList ++ Numeral.decimal record.value ++ ['\n']

namespace Transcript
open Template

theorem printf_cons (template : Text) (argument : Argument) (arguments : List Argument) :
    Output.printf template (argument :: arguments) = fill template (argument :: arguments) := rfl

theorem printf_error (message line : Text) (lineNumber : Int) :
    Output.printf errorFormat [.text message, .number lineNumber, .text line] =
      .ok ("Error: ".toList ++ message ++ '\n' :: detailIndent ++ "line ".toList ++
        Numeral.print lineNumber ++ ": \"".toList ++ line ++ "\"\n".toList) := by
  have places : errorFormat = "Error: ".toList ++ '%' :: 's' :: ('\n' :: detailIndent ++ "line ".toList ++
      '%' :: 'd' :: (": \"".toList ++ '%' :: 's' :: ("\"\n".toList ++ []))) := by decide
  have opening : '%' ∉ "Error: ".toList := by decide
  have beforeNumber : '%' ∉ '\n' :: detailIndent ++ "line ".toList := by decide
  have beforeLine : '%' ∉ ": \"".toList := by decide
  have closing : '%' ∉ "\"\n".toList := by decide
  rw [printf_cons, places, fill_plain opening, fill_text,
    fill_plain beforeNumber, fill_number, fill_plain beforeLine, fill_text, fill_plain closing, fill]
  simp only [Except.map, Argument.print, List.append_nil, List.append_assoc]

theorem printf_detail (detail : Text) :
    Output.printf detailFormat [.text detail] = .ok (detail ++ ['\n']) := by
  have places : detailFormat = '%' :: 's' :: (['\n'] ++ []) := by decide
  have closing : '%' ∉ ['\n'] := by decide
  rw [printf_cons, places, fill_text, fill_plain closing, fill]
  rfl

theorem printf_result (line : Text) (value : Int) :
    Output.printf resultFormat [.text line, .number value] =
      .ok (line ++ " = ".toList ++ Numeral.print value ++ ['\n']) := by
  have places : resultFormat = '%' :: 's' :: (" = ".toList ++ '%' :: 's' :: (['\n'] ++ [])) := by decide
  have between : '%' ∉ " = ".toList := by decide
  have closing : '%' ∉ ['\n'] := by decide
  rw [printf_cons, places, fill_text, fill_plain between, fill_text,
    fill_plain closing, fill]
  simp only [Except.map, Argument.print, List.append_nil, List.append_assoc]

theorem block_eq (record : ErrorRecord) : record.block =
    "Error: ".toList ++ record.message ++ '\n' :: detailIndent ++ "line ".toList ++
      Numeral.print record.lineNumber ++ ": \"".toList ++ record.line ++ "\"\n".toList ++
      (record.detail.elim [] fun detail => indentDetail detail ++ ['\n']) := by
  -- The definition has no equations of a size to rewrite with.
  delta ErrorRecord.block
  cases record.detail <;> rfl

/-- The pieces that are written for an error make up its block: one piece, and another for its
    detail if it has one. -/
theorem ofEvent_failed (record : ErrorRecord) :
    ∃ pieces, ofEvent (.failed record) = .ok pieces ∧
      pieces.length = (if record.detail.isSome then 2 else 1) ∧ pieces.flatten = record.block := by
  rw [ofEvent, printf_error, block_eq]
  cases record.detail with
  | none =>
    refine ⟨[_], rfl, rfl, ?_⟩
    rw [List.flatten_singleton, Option.elim_none, List.append_nil]
  | some detail =>
    simp only [printf_detail]
    refine ⟨[_, _], rfl, rfl, ?_⟩
    rw [List.flatten_cons, List.flatten_singleton, Option.elim_some]

theorem ofEvent_text (event : Event) : ∃ pieces, ofEvent event = .ok pieces ∧ pieces.flatten = event.text := by
  cases event with
  | failed record =>
    obtain ⟨pieces, written, -, block⟩ := ofEvent_failed record
    exact ⟨pieces, written, block⟩
  | valued record =>
    rw [ofEvent, printf_result]
    refine ⟨_, rfl, ?_⟩
    rw [Numeral.print_eq_decimal, List.flatten_singleton, Event.text]

theorem ofEvents_text (events : List Event) :
    ∃ pieces, ofEvents events = .ok pieces ∧ pieces.flatten = events.flatMap Event.text := by
  induction events with
  | nil => exact ⟨[], rfl, rfl⟩
  | cons event rest ih =>
    obtain ⟨first, written, text⟩ := ofEvent_text event
    obtain ⟨more, writtenMore, textMore⟩ := ih
    refine ⟨first ++ more, ?_, ?_⟩
    · rw [ofEvents, written, writtenMore]
    · rw [List.flatten_append, text, textMore, List.flatMap_cons]

end Transcript

/-- The listener has been told of every event of the report, in order. -/
def Session.Heard (session : Session) : Prop := session.notices.map Notice.event = session.report.events

theorem Session.kept_heard : Session.Kept Session.Heard := by
  intro session line outcome log _ _ heard
  simp only [Heard, after, List.map_append, List.map_map]
  rw [heard]
  simp [Function.comp_def]

namespace Transcript

theorem ofSession_text (banner : Bool) {session : Session} (heard : session.Heard) :
    ∃ pieces, ofSession banner session = .ok pieces ∧
      pieces.flatten = (if banner then "executing...\n".toList else []) ++ session.report.events.flatMap Event.text ++
        (if banner then "done!\n\n".toList else []) := by
  obtain ⟨pieces, written, text⟩ := ofEvents_text session.report.events
  cases banner with
  | true =>
    refine ⟨opening :: pieces ++ [closing], ?_, ?_⟩
    · rw [ofSession, heard, written]
      rfl
    · rw [List.cons_append, List.flatten_cons, List.flatten_append, List.flatten_singleton, text, if_pos rfl, if_pos rfl,
        List.append_assoc]
      rfl
  | false =>
    refine ⟨pieces, ?_, by simpa using text⟩
    rw [ofSession, heard, written]
    rfl

theorem exists_process (banner verbose : Bool) (source : Text) :
    ∃ run, process banner verbose source = .ok run ∧ (Session.start verbose source).run = .ok run.session ∧
      run.pieces.flatten = (if banner then "executing...\n".toList else []) ++
        run.session.report.events.flatMap Event.text ++ (if banner then "done!\n\n".toList else []) := by
  have silent : (Session.start verbose source).Heard := rfl
  obtain ⟨last, log, ran, heard, -, -⟩ := Session.run_to_end Session.kept_heard silent (Nat.zero_le _)
  have told : ({ last with phase := .done, log := log } : Session).Heard := heard
  obtain ⟨pieces, written, text⟩ := ofSession_text banner told
  refine ⟨⟨_, pieces⟩, ?_, ran, text⟩
  rw [process, ran]
  dsimp only
  rw [written]

/-- What a run writes is its report, event for event, between the banner lines if there are any. -/
theorem process_text (banner verbose : Bool) (source : Text) :
    (∃ run, process banner verbose source = .ok run ∧ (Session.start verbose source).run = .ok run.session ∧
      run.pieces.flatten = (if banner then "executing...\n".toList else []) ++
        run.session.report.events.flatMap Event.text ++ (if banner then "done!\n\n".toList else [])) ∧
    ∀ record : ErrorRecord, ∃ pieces, ofEvent (.failed record) = .ok pieces ∧
      pieces.length = (if record.detail.isSome then 2 else 1) ∧ pieces.flatten = record.block := by
  refine ⟨?_, ofEvent_failed⟩
  exact exists_process banner verbose source

end Transcript
end LineCalc
