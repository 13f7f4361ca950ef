import LineCalc.Lines

/-!
Lines with what ends them. A text is its lines, each with its end behind it
(`Lines.cut_withEnds`), and lines can be replaced one by one while their ends stay
(`Lines.ofText_replace`).
-/
namespace LineCalc.Lines

/-- A text within one line. -/
abbrev Unbroken (text : Text) : Prop := '\r' ∉ text ∧ '\n' ∉ text

/-- Puts a character in front of the first line, or makes it the last one, which nothing ends. -/
def extendFirstEnded (c : Char) : List (Text × Text) → List (Text × Text)
  | [] => [([c], [])]
  | (line, ending) :: rest => (c :: line, ending) :: rest

/-- The lines of a text, each with its end. -/
def withEnds : Text → List (Text × Text)
  | [] => []
  | '\r' :: '\n' :: rest => ([], ['\r', '\n']) :: withEnds rest
  | '\r' :: rest => ([], ['\r']) :: withEnds rest
  | '\n' :: rest => ([], ['\n']) :: withEnds rest
  | c :: rest => extendFirstEnded c (withEnds rest)

/-- Other lines stand in the places of the lines, with the same ends. -/
def replace (change : Text → Text) (text : Text) : Text :=
  (withEnds text).flatMap fun piece => change piece.1 ++ piece.2

/-- A return is the whole end of a line only where no line feed follows. -/
inductive Ends : Text → Text → Prop
  | feed {rest : Text} : Ends ['\n'] rest
  | pair {rest : Text} : Ends ['\r', '\n'] rest
  | alone {rest : Text} : rest.head? ≠ some '\n' → Ends ['\r'] rest

/-- The pieces that a text is cut into: lines with their ends, and a last line without one
    unless it would be empty. -/
inductive Cut : List (Text × Text) → Text → Prop
  | nil : Cut [] []
  | last {line : Text} : line ≠ [] → Unbroken line → Cut [(line, [])] line
  | ended {line ending rest : Text} {pieces : List (Text × Text)} :
      Unbroken line → Ends ending rest → Cut pieces rest → Cut ((line, ending) :: pieces) (line ++ ending ++ rest)

theorem unbroken_nil : Unbroken [] := ⟨List.not_mem_nil, List.not_mem_nil⟩

theorem unbroken_cons {c : Char} {text : Text} : Unbroken (c :: text) ↔ (c ≠ '\r' ∧ c ≠ '\n') ∧ Unbroken text := by
  simp only [Unbroken, List.mem_cons, not_or, ne_eq, @eq_comm _ c]
  constructor
  · rintro ⟨⟨noReturn, restReturn⟩, noFeed, restFeed⟩
    exact ⟨⟨noReturn, noFeed⟩, restReturn, restFeed⟩
  · rintro ⟨⟨noReturn, noFeed⟩, restReturn, restFeed⟩
    exact ⟨⟨noReturn, restReturn⟩, noFeed, restFeed⟩

theorem ofText_ending {line ending rest : Text} (unbroken : Unbroken line) (ends : Ends ending rest) :
    ofText (line ++ ending ++ rest) = line :: ofText rest := by
  induction line with
  | nil =>
    cases ends with
    | feed | pair => simp [ofText]
    | alone apart => exact ofText_return apart
  | cons c line ih =>
    obtain ⟨⟨notReturn, notFeed⟩, inside⟩ := unbroken_cons.mp unbroken
    rw [List.cons_append, List.cons_append, ofText_plain notReturn notFeed, ih inside]
    rfl

theorem ofText_unbroken {line : Text} (unbroken : Unbroken line) (nonempty : line ≠ []) : ofText line = [line] := by
  induction line with
  | nil => exact absurd rfl nonempty
  | cons c line ih =>
    obtain ⟨⟨notReturn, notFeed⟩, inside⟩ := unbroken_cons.mp unbroken
    rw [ofText_plain notReturn notFeed]
    by_cases only : line = []
    · rw [only]
      rfl
    · rw [ih inside only]
      rfl

namespace Cut

variable {pieces : List (Text × Text)} {text : Text}

theorem lines (cut : Cut pieces text) : ofText text = pieces.map Prod.fst := by
  induction cut with
  | nil => rfl
  | last nonempty unbroken => exact ofText_unbroken unbroken nonempty
  | ended unbroken ends _ ih => rw [ofText_ending unbroken ends, ih, List.map_cons]

theorem extendFirst (cut : Cut pieces text) {c : Char} (notReturn : c ≠ '\r') (notFeed : c ≠ '\n') :
    Cut (extendFirstEnded c pieces) (c :: text) := by
  cases cut with
  | nil => exact .last (List.cons_ne_nil c []) (unbroken_cons.mpr ⟨⟨notReturn, notFeed⟩, unbroken_nil⟩)
  | last _ unbroken => exact .last (List.cons_ne_nil c _) (unbroken_cons.mpr ⟨⟨notReturn, notFeed⟩, unbroken⟩)
  | ended unbroken ends rest => exact .ended (unbroken_cons.mpr ⟨⟨notReturn, notFeed⟩, unbroken⟩) ends rest

variable {change : Text → Text}

theorem head_replace (cut : Cut pieces text)
    (unbroken : ∀ line ∈ pieces.map Prod.fst, Unbroken (change line) ∧ (change line = [] → line = []))
    (feed : (pieces.flatMap fun piece => change piece.1 ++ piece.2).head? = some '\n') : text.head? = some '\n' := by
  cases cut with
  | nil => cases feed
  | last =>
    obtain ⟨inside, -⟩ := unbroken text (by simp)
    rw [List.flatMap_singleton, List.append_nil] at feed
    exact absurd (List.mem_of_mem_head? feed) inside.2
  | @ended line ending rest pieces _ ends _ =>
    obtain ⟨inside, nonempty⟩ := unbroken line (by simp)
    rw [List.flatMap_cons, List.append_assoc] at feed
    cases new : change line with
    | cons c more =>
      have first : c = '\n' := by simpa [new] using feed
      rw [new, first] at inside
      exact absurd List.mem_cons_self inside.2
    | nil =>
      -- The line is empty, so the text begins with the same end as before.
      rw [new, List.nil_append] at feed
      rw [nonempty new, List.nil_append]
      cases ends with
      | feed => rfl
      | pair | alone => cases feed

theorem replace (cut : Cut pieces text)
    (unbroken : ∀ line ∈ pieces.map Prod.fst, Unbroken (change line) ∧ (change line = [] → line = [])) :
    Cut (pieces.map fun piece => (change piece.1, piece.2))
      (pieces.flatMap fun piece => change piece.1 ++ piece.2) := by
  induction cut with
  | nil => exact .nil
  | @last line nonempty _ =>
    obtain ⟨inside, empty⟩ := unbroken line (by simp)
    rw [List.flatMap_singleton, List.append_nil]
    exact .last (fun none => nonempty (empty none)) inside
  | @ended line ending rest pieces _ ends behind ih =>
    have later := fun other member => unbroken other (List.mem_cons_of_mem line member)
    obtain ⟨inside, -⟩ := unbroken line (by simp)
    have endsNew : Ends ending (pieces.flatMap fun piece => change piece.1 ++ piece.2) := by
      cases ends with
      | feed => exact .feed
      | pair => exact .pair
      | alone apart => exact .alone fun feed => apart (behind.head_replace later feed)
    exact .ended inside endsNew (ih later)

end Cut

/-- A text is cut into its lines with their ends. -/
theorem cut_withEnds (text : Text) : Cut (withEnds text) text := by
  fun_induction withEnds text with
  | case1 => exact .nil
  | case2 rest ih => exact .ended unbroken_nil .pair ih
  | case3 rest notFeed ih =>
    refine .ended unbroken_nil (.alone ?_) ih
    intro feed
    obtain ⟨more, rfl⟩ := List.head?_eq_some_iff.mp feed
    exact notFeed more rfl
  | case4 rest ih => exact .ended unbroken_nil .feed ih
  | case5 c rest _ notReturn notFeed ih => exact ih.extendFirst notReturn notFeed

/-- The other lines are not broken, and may be empty only where the old ones are. -/
theorem ofText_replace {change : Text → Text} {text : Text}
    (unbroken : ∀ line ∈ ofText text, Unbroken (change line) ∧ (change line = [] → line = [])) :
    ofText (replace change text) = (ofText text).map change := by
  have cut := cut_withEnds text
  rw [cut.lines] at unbroken ⊢
  rw [replace, (cut.replace unbroken).lines, List.map_map, List.map_map]
  rfl

end LineCalc.Lines
