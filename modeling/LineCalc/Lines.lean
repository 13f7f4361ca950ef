import LineCalc.Text

/-!
The numbered lines of a source text. What stands after the last line end is a line only when it is
not empty (`Lines.ofText`). No line holds an end (`Lines.free_of_ends`), and lines that are ended
by line feeds are read back (`Lines.ofText_ended`).
-/
namespace LineCalc.Lines

def extendFirst (c : Char) : List Text → List Text
  | [] => [[c]]
  | line :: rest => (c :: line) :: rest

def ofText : Text → List Text
  | [] => []
  | '\r' :: '\n' :: rest => [] :: ofText rest
  | '\r' :: rest => [] :: ofText rest
  | '\n' :: rest => [] :: ofText rest
  | c :: rest => extendFirst c (ofText rest)

/-- The text of lines of which each is ended by a line feed. -/
def ended (lines : List Text) : Text := lines.flatMap (· ++ ['\n'])

/-- The lines with their numbers, from 1 on. -/
def numbered (lines : List Text) : List (Nat × Text) := (lines.zipIdx 1).map fun (line, number) => (number, line)

/-- Zero is the number of the last line, and negative numbers go back from there. -/
def line? (lines : List Text) (number : Int) : Option Text :=
  let index := if 1 ≤ number then number - 1 else lines.length + number - 1
  if 0 ≤ index then lines[index.toNat]? else none

theorem ofText_return {rest : Text} (apart : rest.head? ≠ some '\n') : ofText ('\r' :: rest) = [] :: ofText rest := by
  cases rest with
  | nil => rfl
  | cons c rest =>
    have differs : c ≠ '\n' := by simpa using apart
    simp [ofText, differs]

theorem ofText_plain {c : Char} (notReturn : c ≠ '\r') (notFeed : c ≠ '\n') (rest : Text) :
    ofText (c :: rest) = extendFirst c (ofText rest) := by
  simp [ofText, notReturn]

theorem free_of_ends {text line : Text} (member : line ∈ ofText text) : '\r' ∉ line ∧ '\n' ∉ line := by
  fun_induction ofText text generalizing line with
  | case1 => simp at member
  | case2 rest ih | case3 rest _ ih | case4 rest ih =>
    rcases List.mem_cons.1 member with rfl | later
    · simp
    · exact ih later
  | case5 c rest _ notReturn notFeed ih =>
    cases lines : ofText rest with
    | nil =>
      simp only [lines, extendFirst, List.mem_singleton] at member
      subst member
      simp [Ne.symm notReturn, Ne.symm notFeed]
    | cons first more =>
      rw [lines] at member ih
      simp only [extendFirst, List.mem_cons] at member ih
      rcases member with rfl | later
      · have := ih (.inl rfl)
        simp_all [eq_comm]
      · exact ih (.inr later)

theorem ofText_append_feed {line : Text} (free : '\r' ∉ line ∧ '\n' ∉ line) (rest : Text) :
    ofText (line ++ '\n' :: rest) = line :: ofText rest := by
  induction line with
  | nil => simp [ofText]
  | cons c line ih =>
    obtain ⟨noReturn, noFeed⟩ := free
    have notReturn : c ≠ '\r' := by
      rintro rfl
      exact noReturn List.mem_cons_self
    have notFeed : c ≠ '\n' := by
      rintro rfl
      exact noFeed List.mem_cons_self
    have behind := ih ⟨fun member => noReturn (List.mem_cons_of_mem _ member),
      fun member => noFeed (List.mem_cons_of_mem _ member)⟩
    rw [List.cons_append, ofText_plain notReturn notFeed, behind]
    rfl

theorem ended_cons (line : Text) (rest : List Text) : ended (line :: rest) = line ++ '\n' :: ended rest := by
  simp [ended]

theorem ofText_ended {lines : List Text} (free : ∀ line ∈ lines, '\r' ∉ line ∧ '\n' ∉ line) :
    ofText (ended lines) = lines := by
  induction lines with
  | nil => rfl
  | cons line rest ih =>
    have behind := ih fun other member => free other (List.mem_cons_of_mem _ member)
    rw [ended_cons, ofText_append_feed (free line List.mem_cons_self), behind]

theorem line?_succ (lines : List Text) (index : Nat) : line? lines (index + 1) = lines[index]? := by
  have positive : (1 : Int) ≤ index + 1 := by omega
  simp [line?, positive]

end LineCalc.Lines
