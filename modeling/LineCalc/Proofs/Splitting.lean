import LineCalc.CommandLine
import LineCalc.Proofs.LineEnds

/-!
Texts and their lines settle each other. Lines that are all ended in the same way are read back
from their text, whichever end it is (`Lines.cut_terminated`), and a text is got back from its
lines but for the kinds of its line ends (`Lines.Cut.ended_lines`).
-/
namespace LineCalc.Lines
open CommandLine

/-- What ends a line. -/
def terminators : List Text := [['\n'], ['\r'], ['\r', '\n']]

/-- A text with an end of its last line. Only the empty text has no last line. -/
def closed (text : Text) : Text := if text = [] ∨ text.getLast? = some '\n' then text else text ++ ['\n']

/-! ## From lines to a text and back -/

/-- No line begins with a line feed, also where lines are ended by returns. -/
theorem head_flatMap_return {lines : List Text} (unbroken : ∀ line ∈ lines, Unbroken line) :
    (lines.flatMap (· ++ ['\r'])).head? ≠ some '\n' := by
  cases lines with
  | nil => nofun
  | cons line rest =>
    cases line with
    | nil => simp
    | cons c line =>
      intro feed
      have first : c = '\n' := by simpa using feed
      exact (unbroken_cons.mp (unbroken _ List.mem_cons_self)).1.2 first

/-- Lines that are ended in the same way are cut off their text. -/
theorem cut_terminated {lines : List Text} (unbroken : ∀ line ∈ lines, Unbroken line) {terminator : Text}
    (isEnd : terminator ∈ terminators) :
    Cut (lines.map (·, terminator)) (lines.flatMap (· ++ terminator)) := by
  induction lines with
  | nil => exact .nil
  | cons line rest ih =>
    have later := fun other member => unbroken other (List.mem_cons_of_mem line member)
    have ends : Ends terminator (rest.flatMap (· ++ terminator)) := by
      simp only [terminators, List.mem_cons, List.not_mem_nil, or_false] at isEnd
      obtain rfl | rfl | rfl := isEnd
      · exact .feed
      · exact .alone (head_flatMap_return later)
      · exact .pair
    exact .ended (unbroken line List.mem_cons_self) ends (ih later)

/-! ## From a text to its lines and back -/

theorem unifyLineEnds_unbroken_append {line : Text} (unbroken : Unbroken line) (rest : Text) :
    unifyLineEnds (line ++ rest) = line ++ unifyLineEnds rest := by
  induction line with
  | nil => rfl
  | cons c line ih =>
    obtain ⟨⟨notReturn, -⟩, inside⟩ := unbroken_cons.mp unbroken
    rw [List.cons_append, List.cons_append, ← ih inside]
    simp [unifyLineEnds, notReturn]

theorem unifyLineEnds_ending {ending rest : Text} (ends : Ends ending rest) :
    unifyLineEnds (ending ++ rest) = '\n' :: unifyLineEnds rest := by
  cases ends with
  | feed | pair => simp [unifyLineEnds]
  | alone apart =>
    cases rest with
    | nil => rfl
    | cons c rest =>
      have differs : c ≠ '\n' := by simpa using apart
      simp [unifyLineEnds, differs]

theorem closed_unbroken {line : Text} (nonempty : line ≠ []) (unbroken : Unbroken line) :
    closed line = line ++ ['\n'] := by
  rw [closed, if_neg]
  rintro (none | feed)
  · exact nonempty none
  · exact unbroken.2 (List.mem_of_getLast? feed)

theorem closed_append_feed (line rest : Text) : closed (line ++ '\n' :: rest) = line ++ '\n' :: closed rest := by
  have sameEnd : (line ++ '\n' :: rest = [] ∨ (line ++ '\n' :: rest).getLast? = some '\n') ↔
      (rest = [] ∨ rest.getLast? = some '\n') := by
    cases rest <;> simp
  simp only [closed, sameEnd]
  split
  · rfl
  · rw [List.append_assoc, List.cons_append]

theorem Cut.ended_lines {pieces : List (Text × Text)} {text : Text} (cut : Cut pieces text) :
    Lines.ended (pieces.map Prod.fst) = closed (unifyLineEnds text) := by
  induction cut with
  | nil => rfl
  | @last line nonempty unbroken =>
    have same := unifyLineEnds_unbroken_append unbroken []
    rw [List.append_nil, unifyLineEnds, List.append_nil] at same
    rw [same, closed_unbroken nonempty unbroken, List.map_singleton, ended_cons]
    rfl
  | @ended line ending rest pieces unbroken ends _ ih =>
    rw [List.append_assoc, unifyLineEnds_unbroken_append unbroken, unifyLineEnds_ending ends, closed_append_feed, ← ih,
      List.map_cons, ended_cons]

/-! ## Numbers of lines -/

theorem getElem?_numbered (lines : List Text) (index : Nat) :
    (numbered lines)[index]? = lines[index]?.map (index + 1, ·) := by
  rw [numbered, List.getElem?_map, List.getElem?_zipIdx, Option.map_map]
  congr 1
  funext line
  exact congrArg (·, line) (Nat.add_comm 1 index)

/-- No line holds a line end; the lines with line feeds are the text with line feeds for all its
    line ends, and one behind a last line that nothing ended. Lines that hold no line end are the
    lines of their text, whichever end is put behind all of them. The numbers from 1 on find each
    line where it is listed. -/
theorem ofText_lossless :
    (∀ source, (∀ line ∈ ofText source, Unbroken line) ∧
      ended (ofText source) = closed (unifyLineEnds source)) ∧
    (∀ lines : List Text, (∀ line ∈ lines, Unbroken line) → ∀ terminator ∈ terminators,
      ofText (lines.flatMap (· ++ terminator)) = lines) ∧
    ∀ source, ∀ number : Nat, 1 ≤ number → number ≤ (ofText source).length →
      ∃ line, line? (ofText source) number = some line ∧
        (numbered (ofText source))[number - 1]? = some (number, line) := by
  refine ⟨fun source => ⟨fun _ => free_of_ends, ?_⟩, ?_, ?_⟩
  · have cut := cut_withEnds source
    rw [cut.lines, cut.ended_lines]
  · intro lines unbroken terminator isEnd
    rw [(cut_terminated unbroken isEnd).lines, List.map_map]
    exact List.map_id lines
  · intro source number first within
    obtain ⟨index, rfl⟩ : ∃ index, number = index + 1 := ⟨number - 1, by omega⟩
    have found : (ofText source)[index]? = some (ofText source)[index] := List.getElem?_eq_getElem within
    refine ⟨(ofText source)[index], ?_, ?_⟩
    · rw [← found, ← line?_succ]
      rfl
    · rw [Nat.add_sub_cancel, getElem?_numbered, found]
      rfl

end LineCalc.Lines
