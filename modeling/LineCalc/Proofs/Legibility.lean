import LineCalc.Proofs.Layout
import LineCalc.Proofs.Wording
import Mathlib.Data.List.Forall2

/-!
Transcripts that can be read back. Source texts get into what a run writes, but never so that one
event could be taken for another: an error has no line feed in its parts, and a line with a value
has no colon and no equals sign and is written without the blanks in front of it
(`Event.Legible`). So the text of an event tells where it ends and what it shows
(`Event.Legible.cancel`).
-/
namespace LineCalc
open Numeral

/-- Errors agree in message, line number, line and detail, results in their value and in their line
    but for the blanks around it. -/
inductive Event.Alike : Event → Event → Prop
  | failed {first second : ErrorRecord} : first.message = second.message → first.lineNumber = second.lineNumber →
      first.line = second.line → first.detail = second.detail → Alike (failed first) (failed second)
  | valued {first second : ResultRecord} : Text.strip Text.isBlank first.line = Text.strip Text.isBlank second.line →
      first.value = second.value → Alike (valued first) (valued second)

/-- The marks of a transcript: a colon ends the first word of an error, and an equals sign
    the line of a result. -/
def isMark (c : Char) : Bool := c = ':' || c = '='

/-- No part of the error has a line feed. -/
structure ErrorRecord.Legible (record : ErrorRecord) : Prop where
  message : '\n' ∉ record.message
  line : '\n' ∉ record.line
  detail : ∀ detail, record.detail = some detail → '\n' ∉ detail

/-- The line of the result is not blank and has no marks. -/
structure ResultRecord.Legible (record : ResultRecord) : Prop where
  notBlank : Text.strip Text.isBlank record.line ≠ []
  plain : ∀ c ∈ record.line, isMark c = false

/-- The text of the event can be read back. -/
def Event.Legible : Event → Prop
  | failed record => record.Legible
  | valued record => record.Legible

/-! ## Texts that are cut at a character -/

namespace Text

/-- Two texts that are cut at their first stops are equal only in both parts. -/
theorem cut_at_stop {isStop : Char → Bool} {front other rest more : Text} {c d : Char}
    (before : ∀ x ∈ front, isStop x = false) (stop : isStop c = true) (beforeOther : ∀ x ∈ other, isStop x = false)
    (stopOther : isStop d = true) (same : front ++ c :: rest = other ++ d :: more) :
    front = other ∧ c = d ∧ rest = more := by
  have cut : ∀ (left right : Text) (e : Char), (∀ x ∈ left, isStop x = false) → isStop e = true →
      (left ++ e :: right).takeWhile (! isStop ·) = left ∧ (left ++ e :: right).dropWhile (! isStop ·) = e :: right := by
    intro left right e free ends
    refine Munch.split_at_boundary ?_ ?_
    · intro x member
      simp [free x member]
    · rintro x ⟨⟩
      simp [ends]
  obtain ⟨taken, left⟩ := cut front rest c before stop
  obtain ⟨takenOther, leftOther⟩ := cut other more d beforeOther stopOther
  rw [same] at taken left
  obtain ⟨sameStop, sameRest⟩ := List.cons.inj (left.symm.trans leftOther)
  exact ⟨taken.symm.trans takenOther, sameStop, sameRest⟩

theorem cut_at {c : Char} {front other rest more : Text} (before : c ∉ front) (beforeOther : c ∉ other)
    (same : front ++ c :: rest = other ++ c :: more) : front = other ∧ rest = more := by
  have free : ∀ {text : Text}, c ∉ text → ∀ x ∈ text, (x == c) = false := by
    intro text absent x member
    exact beq_eq_false_iff_ne.mpr (ne_of_mem_of_not_mem member absent)
  have stop := beq_self_eq_true c
  obtain ⟨sameFront, -, sameRest⟩ := cut_at_stop (free before) stop (free beforeOther) stop same
  exact ⟨sameFront, sameRest⟩

end Text

theorem indentDetail_plain {detail : Text} (free : '\n' ∉ detail) : indentDetail detail = detailIndent ++ detail := by
  have same : detail.flatMap (fun c => if c = '\n' then c :: detailIndent else [c]) = detail.flatMap ([·]) := by
    refine List.flatMap_congr ?_
    intro c member
    rw [if_neg (ne_of_mem_of_not_mem member free)]
  rw [indentDetail, same, List.flatMap_singleton']

theorem Numeral.decimal_injective : Function.Injective decimal := Function.LeftInverse.injective integerOf_decimal

theorem Numeral.not_mem_decimal {c : Char} (other : c ≠ '-') (noDigit : c.isDigit = false) (n : Int) : c ∉ decimal n := by
  intro member
  rcases mem_decimal member with minus | digit
  · exact other minus
  · rw [noDigit] at digit
    exact absurd digit Bool.false_ne_true

/-! ## The events of a line -/

theorem Operand.IsProper.characters {operand : Operand} (proper : operand.IsProper) :
    ∀ c ∈ operand.lexeme, isNameCharacter c = true := by
  cases operand with
  | literal digits =>
    obtain ⟨-, all⟩ := proper
    intro c member
    exact Bool.or_eq_true_iff.mpr (Or.inr (all c member))
  | reference name => exact IsName.characters proper
  | unsupported => exact proper.elim

theorem isMark_eq_false {c : Char} (inName : isNameCharacter c = true) : isMark c = false := by
  rw [isMark, Bool.or_eq_false_iff, decide_eq_false_iff_not, decide_eq_false_iff_not]
  constructor
  · rintro rfl
    exact absurd inName (by decide)
  · rintro rfl
    exact absurd inName (by decide)

theorem TokenKind.plain_sign (kind : TokenKind) : ∀ c ∈ kind.sign, isMark c = false := by
  intro c member
  cases kind with
  | plus | minus | star | slash | percent =>
    rw [List.mem_singleton.mp member]
    rfl
  | ident | int | assign | eof => cases member

theorem Expr.Canonical.plain {tree : Expr} (canonical : tree.Canonical) :
    ∀ lexeme ∈ tree.lexemes, ∀ c ∈ lexeme, isMark c = false := by
  induction tree with
  | leaf operand =>
    intro lexeme member c inside
    rw [List.mem_singleton.mp member] at inside
    exact isMark_eq_false (Operand.IsProper.characters canonical c inside)
  | binary operator left right ihl ihr =>
    intro lexeme member
    rcases List.mem_append.mp member with inLeft | later
    · exact ihl canonical.1 lexeme inLeft
    · rcases List.mem_cons.mp later with rfl | inRight
      · exact operator.plain_sign
      · exact ihr canonical.2.1 lexeme inRight

theorem Spells.characters {holds : Char → Prop} (space : holds ' ') (tab : holds '\t') {lexemes : List Text} {text : Text}
    (spelled : Spells lexemes text) (each : ∀ lexeme ∈ lexemes, ∀ c ∈ lexeme, holds c) : ∀ c ∈ text, holds c := by
  have inGap : ∀ {gap : Text}, IsGap gap → ∀ c ∈ gap, holds c := by
    intro gap isGap c member
    rcases isGap c member with rfl | rfl
    · exact space
    · exact tab
  induction spelled with
  | nil isGap => exact inGap isGap
  | @cons gap lexeme rest lexemes isGap _ ih =>
    have behind := ih fun other member => each other (List.mem_cons_of_mem _ member)
    intro c member
    rcases List.mem_append.mp member with front | later
    · rcases List.mem_append.mp front with before | inside
      · exact inGap isGap c before
      · exact each lexeme List.mem_cons_self c inside
    · exact behind c later

theorem Statement.plain_of_expression {line : Text} {tree : Expr} (accepted : ofLine line = .ok (.expression tree)) :
    ∀ c ∈ line, isMark c = false := by
  obtain ⟨canonical, spelled⟩ := canonical_of_expression accepted
  refine Spells.characters ?_ ?_ spelled canonical.plain
  · rfl
  · rfl

theorem Statement.strip_ne_nil_of_expression {line : Text} {tree : Expr}
    (accepted : ofLine line = .ok (.expression tree)) : Text.strip Text.isBlank line ≠ [] := by
  intro blank
  have comment : isComment line = true := by
    rw [isComment, blank]
    rfl
  rw [ofLine, if_pos comment] at accepted
  cases accepted

theorem Yields.legible {environment : Environment} {line : Text} {outcome : Outcome}
    (yields : Yields environment line outcome) (free : '\n' ∉ line) (number : Nat) :
    ∀ event ∈ outcome.events number line, event.Legible := by
  intro event member
  cases outcome with
  | passed | bound => cases member
  | valued value =>
    rw [List.mem_singleton.mp member]
    cases yields with
    | value accepted => exact ⟨Statement.strip_ne_nil_of_expression accepted, Statement.plain_of_expression accepted⟩
  | failed error =>
    rw [List.mem_singleton.mp member]
    have quotes := yields.quotes
    refine ⟨quotes.message.free_of_feeds free, free, ?_⟩
    intro detail told
    exact (quotes.detail detail told).free_of_feeds free

/-- The lines are without line feeds, and what has been told of them can be read back. -/
structure Session.Legible (session : Session) : Prop where
  lines : ∀ line ∈ session.lines, '\n' ∉ line
  events : ∀ event ∈ session.report.events, event.Legible

theorem Session.kept_legible : Session.Kept Session.Legible := by
  intro session line outcome log found yields legible
  refine ⟨legible.lines, ?_⟩
  intro event member
  rcases List.mem_append.mp member with before | added
  · exact legible.events event before
  · exact yields.legible (legible.lines line (List.mem_of_getElem? found)) (session.cursor + 1) event added

theorem Session.run_legible {verbose : Bool} {source : Text} {session : Session}
    (ran : (Session.start verbose source).run = .ok session) : ∀ event ∈ session.report.events, event.Legible := by
  have first : (Session.start verbose source).Legible := by
    refine ⟨?_, by rintro event ⟨⟩⟩
    intro line member
    exact (Lines.free_of_ends member).2
  obtain ⟨last, log, finished, legible, -, -⟩ := run_to_end kept_legible first (Nat.zero_le _)
  rw [finished] at ran
  cases ran
  exact legible.events

/-! ## The texts of events -/

def ErrorRecord.detailText (record : ErrorRecord) : Text :=
  record.detail.elim [] fun detail => indentDetail detail ++ ['\n']

theorem ErrorRecord.detailText_none {record : ErrorRecord} (silent : record.detail = none) : record.detailText = [] := by
  rw [detailText, silent]
  rfl

theorem ErrorRecord.detailText_some {record : ErrorRecord} {detail : Text} (told : record.detail = some detail)
    (free : '\n' ∉ detail) {rest : Text} :
    record.detailText ++ rest = detailIndent ++ (detail ++ '\n' :: rest) := by
  rw [detailText, told, Option.elim_some, indentDetail_plain free]
  simp only [List.append_assoc, List.cons_append, List.nil_append]

theorem ErrorRecord.block_append (record : ErrorRecord) (rest : Text) : record.block ++ rest =
    ("Error: ".toList ++ record.message) ++ '\n' :: ((detailIndent ++ "line ".toList) ++ (decimal record.lineNumber ++
      ':' :: (" \"".toList ++ ((record.line ++ ['"']) ++ '\n' :: (record.detailText ++ rest))))) := by
  have colon : ": \"".toList = ':' :: " \"".toList := by decide
  have closing : "\"\n".toList = ['"', '\n'] := by decide
  rw [Transcript.block_eq, print_eq_decimal, colon, closing, ← detailText]
  simp only [List.append_assoc, List.cons_append, List.nil_append]

namespace Event

theorem text_failed_append (record : ErrorRecord) (rest : Text) :
    ∃ more, (failed record).text ++ rest = "Error".toList ++ ':' :: more := by
  have words : "Error: ".toList = "Error".toList ++ ':' :: [' '] := by decide
  rw [text, ErrorRecord.block_append, words, List.append_assoc, List.append_assoc]
  exact ⟨_, rfl⟩

theorem text_valued_append (record : ResultRecord) (rest : Text) : (valued record).text ++ rest =
    (Text.strip Text.isBlank record.line ++ [' ']) ++ '=' :: ' ' :: (decimal record.value ++ '\n' :: rest) := by
  have sign : " = ".toList = [' ', '=', ' '] := by decide
  rw [text, sign]
  simp only [List.append_assoc, List.cons_append, List.nil_append]

theorem Legible.text_head {event : Event} (legible : event.Legible) (rest : Text) :
    ∃ c more, event.text ++ rest = c :: more ∧ c ≠ ' ' := by
  cases event with
  | failed record =>
    obtain ⟨more, shown⟩ := text_failed_append record rest
    exact ⟨'E', _, shown, by decide⟩
  | valued record =>
    obtain ⟨c, more, stripped⟩ := List.exists_cons_of_ne_nil (ResultRecord.Legible.notBlank legible)
    rw [text_valued_append, stripped]
    refine ⟨c, _, rfl, ?_⟩
    rintro rfl
    exact absurd (Text.head_strip stripped) (by decide)

theorem texts_head {events : List Event} (legible : ∀ event ∈ events, event.Legible) :
    (events.flatMap text).head? ≠ some ' ' := by
  cases events with
  | nil => simp
  | cons event rest =>
    obtain ⟨c, more, begins, differs⟩ := (legible event List.mem_cons_self).text_head (rest.flatMap text)
    rw [List.flatMap_cons, begins]
    simpa using differs

theorem detail_cancel {first second : ErrorRecord} (legible : first.Legible) (other : second.Legible)
    {rest more : Text} (start : rest.head? ≠ some ' ') (startMore : more.head? ≠ some ' ')
    (same : first.detailText ++ rest = second.detailText ++ more) : first.detail = second.detail ∧ rest = more := by
  -- Only a detail begins with a space, so both errors have one or neither has.
  have begins : ∀ text : Text, (detailIndent ++ text).head? = some ' ' := fun _ => rfl
  cases told : first.detail with
  | none =>
    cases toldOther : second.detail with
    | none =>
      rw [ErrorRecord.detailText_none told, ErrorRecord.detailText_none toldOther] at same
      exact ⟨rfl, same⟩
    | some detail =>
      have freeOther := other.detail detail toldOther
      rw [ErrorRecord.detailText_none told, ErrorRecord.detailText_some toldOther freeOther, List.nil_append] at same
      rw [same] at start
      exact absurd (begins _) start
  | some detail =>
    have free := legible.detail detail told
    cases toldOther : second.detail with
    | none =>
      rw [ErrorRecord.detailText_some told free, ErrorRecord.detailText_none toldOther, List.nil_append] at same
      rw [← same] at startMore
      exact absurd (begins _) startMore
    | some detailOther =>
      have freeOther := other.detail detailOther toldOther
      rw [ErrorRecord.detailText_some told free, ErrorRecord.detailText_some toldOther freeOther] at same
      obtain ⟨rfl, sameRest⟩ := Text.cut_at free freeOther (List.append_cancel_left same)
      exact ⟨rfl, sameRest⟩

theorem failed_cancel {first second : ErrorRecord} (legible : first.Legible) (other : second.Legible)
    {rest more : Text} (start : rest.head? ≠ some ' ') (startMore : more.head? ≠ some ' ')
    (same : (failed first).text ++ rest = (failed second).text ++ more) :
    (failed first).Alike (failed second) ∧ rest = more := by
  have opening : '\n' ∉ "Error: ".toList := by decide
  have closing : '\n' ∉ ['"'] := by decide
  have noColon : ∀ n, ':' ∉ decimal n := not_mem_decimal (by decide) (by decide)
  -- The parts are cut off at the first line feed, at the colon behind the number, and at the
  -- line feed behind the line.
  rw [text, text, ErrorRecord.block_append, ErrorRecord.block_append] at same
  obtain ⟨message, behindMessage⟩ :=
    Text.cut_at (List.not_mem_append opening legible.message) (List.not_mem_append opening other.message) same
  obtain ⟨number, behindNumber⟩ := Text.cut_at (noColon _) (noColon _) (List.append_cancel_left behindMessage)
  obtain ⟨line, behindLine⟩ :=
    Text.cut_at (List.not_mem_append legible.line closing) (List.not_mem_append other.line closing)
      (List.append_cancel_left behindNumber)
  obtain ⟨detail, behind⟩ := detail_cancel legible other start startMore behindLine
  refine ⟨.failed ?_ ?_ ?_ detail, behind⟩
  · exact List.append_cancel_left message
  · exact decimal_injective number
  · exact List.append_cancel_right line

theorem plain_front {record : ResultRecord} (legible : record.Legible) :
    ∀ c ∈ Text.strip Text.isBlank record.line ++ [' '], isMark c = false := by
  intro c member
  rcases List.mem_append.mp member with inside | space
  · exact legible.plain c (Text.strip_subset _ _ inside)
  · rw [List.mem_singleton.mp space]
    rfl

theorem valued_cancel {first second : ResultRecord} (legible : first.Legible) (other : second.Legible)
    {rest more : Text} (same : (valued first).text ++ rest = (valued second).text ++ more) :
    (valued first).Alike (valued second) ∧ rest = more := by
  have noFeed : ∀ n, '\n' ∉ decimal n := not_mem_decimal (by decide) (by decide)
  rw [text_valued_append, text_valued_append] at same
  obtain ⟨line, -, behindLine⟩ := Text.cut_at_stop (plain_front legible) rfl (plain_front other) rfl same
  obtain ⟨value, behind⟩ := Text.cut_at (noFeed _) (noFeed _) (List.tail_eq_of_cons_eq behindLine)
  refine ⟨.valued ?_ ?_, behind⟩
  · exact List.append_cancel_right line
  · exact decimal_injective value

/-- The first mark in the text of an error is a colon, and in that of a result an equals sign. -/
theorem failed_ne_valued (first : ErrorRecord) {second : ResultRecord} (legible : second.Legible)
    (rest more : Text) : (failed first).text ++ rest ≠ (valued second).text ++ more := by
  intro same
  have letters : "Error".toList.all isNameCharacter = true := by decide
  have word : ∀ c ∈ "Error".toList, isMark c = false := fun c member => isMark_eq_false (List.all_eq_true.mp letters c member)
  obtain ⟨behind, shown⟩ := text_failed_append first rest
  rw [shown, text_valued_append] at same
  obtain ⟨-, marks, -⟩ := Text.cut_at_stop word rfl (plain_front legible) rfl same
  exact absurd marks (by decide)

/-- The text of an event tells where it ends and what it shows, if no space follows. -/
theorem Legible.cancel {first second : Event} (legible : first.Legible) (other : second.Legible) {rest more : Text}
    (start : rest.head? ≠ some ' ') (startMore : more.head? ≠ some ' ') (same : first.text ++ rest = second.text ++ more) :
    first.Alike second ∧ rest = more := by
  cases first with
  | failed first =>
    cases second with
    | failed second => exact failed_cancel legible other start startMore same
    | valued second => exact absurd same (failed_ne_valued first other rest more)
  | valued first =>
    cases second with
    | failed second => exact absurd same.symm (failed_ne_valued second legible more rest)
    | valued second => exact valued_cancel legible other same

theorem Alike.text_eq {first second : Event} (alike : first.Alike second) : first.text = second.text := by
  cases alike with
  | failed message number line detail =>
    rw [text, text, Transcript.block_eq, Transcript.block_eq, message, number, line, detail]
  | valued line value => rw [text, text, line, value]

theorem texts_eq_of_alike {first second : List Event} (alike : List.Forall₂ Alike first second) :
    first.flatMap text = second.flatMap text := by
  induction alike with
  | nil => rfl
  | cons head _ ih => rw [List.flatMap_cons, List.flatMap_cons, head.text_eq, ih]

theorem texts_ne_nil {event : Event} (legible : event.Legible) (rest : List Event) : (event :: rest).flatMap text ≠ [] := by
  obtain ⟨c, more, begins, -⟩ := legible.text_head (rest.flatMap text)
  rw [List.flatMap_cons, begins]
  exact List.cons_ne_nil c more

theorem alike_of_texts_eq {first second : List Event} (legible : ∀ event ∈ first, event.Legible)
    (other : ∀ event ∈ second, event.Legible) (same : first.flatMap text = second.flatMap text) :
    List.Forall₂ Alike first second := by
  induction first generalizing second with
  | nil =>
    cases second with
    | nil => exact .nil
    | cons event rest => exact absurd same.symm (texts_ne_nil (other event List.mem_cons_self) rest)
  | cons event rest ih =>
    have readable := fun later member => legible later (List.mem_cons_of_mem event member)
    cases second with
    | nil => exact absurd same (texts_ne_nil (legible event List.mem_cons_self) rest)
    | cons eventOther restOther =>
      have readableOther := fun later member => other later (List.mem_cons_of_mem eventOther member)
      -- The texts of later events begin with no space, so the first ones can be cut off.
      rw [List.flatMap_cons, List.flatMap_cons] at same
      obtain ⟨alike, behind⟩ := (legible event List.mem_cons_self).cancel (other eventOther List.mem_cons_self)
        (texts_head readable) (texts_head readableOther) same
      exact .cons alike (ih readable readableOther behind)

end Event

/-- Two runs without banner lines write the same only if they have equally many events and
    these show the same, one by one; and then they do. -/
theorem Transcript.text_eq_iff_alike (verbose verboseOther : Bool) (source other : Text) :
    ∃ first second, process false verbose source = .ok first ∧ process false verboseOther other = .ok second ∧
      (first.pieces.flatten = second.pieces.flatten ↔
        List.Forall₂ Event.Alike first.session.report.events second.session.report.events) := by
  obtain ⟨first, processed, ran, text⟩ := exists_process false verbose source
  obtain ⟨second, processedOther, ranOther, textOther⟩ := exists_process false verboseOther other
  refine ⟨first, second, processed, processedOther, ?_⟩
  have plain : first.pieces.flatten = first.session.report.events.flatMap Event.text := by simpa using text
  have plainOther : second.pieces.flatten = second.session.report.events.flatMap Event.text := by simpa using textOther
  rw [plain, plainOther]
  constructor
  · exact Event.alike_of_texts_eq (Session.run_legible ran) (Session.run_legible ranOther)
  · exact Event.texts_eq_of_alike

end LineCalc
