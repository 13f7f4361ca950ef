import LineCalc.Proofs.Account

/-!
What the outcome of a line depends on. A tree has the same value in environments that agree on the
names in it (`Expr.evaluate_frame`), so what a run tells of a line depends on the first values of
the names that the line assigns to or mentions (`Account.event?_frame`). The events of a run are
sorted by the lines that they are told of (`Report.eventsOf`, `Report.told`).
-/
namespace LineCalc

namespace Expr

/-- The names in a tree, from left to right. -/
def names : Expr → List Text
  | leaf (.reference name) => [name]
  | leaf _ => []
  | binary _ left right => left.names ++ right.names

/-- A tree has the same value, or fails alike, in environments that agree on the names in it. -/
theorem evaluate_frame {tree : Expr} {environment other : Environment}
    (agree : ∀ name ∈ tree.names, environment.lookup? name = other.lookup? name) :
    tree.evaluate environment = tree.evaluate other := by
  induction tree with
  | leaf operand =>
    rw [evaluate_leaf, evaluate_leaf]
    cases operand with
    | reference name =>
      have same := agree name (by simp [names])
      simp only [Operand.evaluate, Environment.lookup, same]
    | literal digits => rfl
    | unsupported => rfl
  | binary operator left right ihl ihr =>
    have sameLeft := ihl fun name member => agree name (List.mem_append_left _ member)
    have sameRight := ihr fun name member => agree name (List.mem_append_right _ member)
    rw [evaluate_binary, evaluate_binary, sameLeft, sameRight]

end Expr

/-- An event as if its line had no number. -/
def Event.unnumbered : Event → Event
  | failed record => failed { record with lineNumber := 0 }
  | valued record => valued { record with lineNumber := 0 }

def Report.eventsOf (report : Report) (number : Int) : List Event :=
  report.events.filter fun event => event.lineNumber = number

/-- What is told of the line at an index, apart from its number. -/
def Report.told (report : Report) (index : Nat) : List Event :=
  (report.events.filter fun event => event.lineNumber = (index : Int) + 1).map Event.unnumbered

namespace Account

/-- The name that a line assigns to, whatever text it assigns. -/
def assigned? (line : Text) : Option Text :=
  match Statement.ofLine line with
  | .ok (.assignment name _ _) => some name
  | _ => none

/-- The names in the expression of a line. -/
def mentioned (line : Text) : List Text :=
  match Statement.ofLine line with
  | .ok (.expression tree) => tree.names
  | _ => []

/-- The names that a line assigns to or mentions. -/
def concerned (line : Text) : List Text := (assigned? line).toList ++ mentioned line

theorem assigned?_of_numeral {line name : Text} {value : Int} (numeral : numeral? line = some (name, value)) :
    assigned? line = some name := by
  unfold numeral? at numeral
  split at numeral
  next other valueText column accepted =>
    split at numeral
    · cases numeral
      simp only [assigned?, accepted]
    · cases numeral
  next => cases numeral

theorem firstValue?_other {name line : Text} (differs : assigned? line ≠ some name) : firstValue? name [line] = none := by
  rw [firstValue?_singleton]
  cases numeral : numeral? line with
  | none => rfl
  | some binding =>
    obtain ⟨other, value⟩ := binding
    have assigned := assigned?_of_numeral numeral
    have distinct : name ≠ other := by
      rintro rfl
      exact differs assigned
    simp [List.lookup_cons, beq_eq_false_iff_ne.mpr distinct]

/-- What is told of a line depends on the first values of the names that concern it. -/
theorem event?_frame {earlier other : List Text} {line : Text}
    (agree : ∀ name ∈ concerned line, firstValue? name earlier = firstValue? name other) :
    (event? earlier line).map Event.unnumbered = (event? other line).map Event.unnumbered := by
  rcases Statement.ofLine_outcome line with comment | ⟨name, valueText, column, assignment⟩ | ⟨tree, accepted⟩ |
    ⟨error, rejected, -⟩
  · simp only [event?, comment]
  · have same := agree name (by simp [concerned, assigned?, assignment])
    simp only [event?, assignment, same]
    by_cases numeral : Numeral.IsNumeral valueText
    · rw [if_pos numeral, if_pos numeral, Option.map_map, Option.map_map]
      rfl
    · rw [if_neg numeral, if_neg numeral]
      rfl
  · have same : tree.evaluate ⟨bindings earlier⟩ = tree.evaluate ⟨bindings other⟩ := by
      refine Expr.evaluate_frame fun name member => ?_
      rw [lookup?_bindings, lookup?_bindings]
      exact agree name (by simp [concerned, mentioned, accepted, member])
    simp only [event?, accepted, same]
    cases tree.evaluate ⟨bindings other⟩ with
    | ok value => rfl
    | error failure => cases failure <;> rfl
  · simp only [event?, rejected]
    rfl

/-! ## The events of one line -/

theorem lineNumber_event? {earlier : List Text} {line : Text} {event : Event} (told : event? earlier line = some event) :
    event.lineNumber = earlier.length + 1 := by
  unfold event? at told
  dsimp only at told
  split at told
  next => cases told
  next name valueText column _ =>
    split at told
    · obtain ⟨first, -, rfl⟩ := Option.map_eq_some_iff.mp told
      rfl
    · cases told
      rfl
  next tree _ => split at told <;> cases told <;> rfl
  next error _ =>
    cases told
    rfl
  next => cases told
  next => cases told

theorem eventsOf_event? (earlier : List Text) (line : Text) (index : Nat) :
    Report.eventsOf ⟨(event? earlier line).toList⟩ (index + 1) =
      if index = earlier.length then (event? earlier line).toList else [] := by
  cases told : event? earlier line with
  | none => simp [Report.eventsOf]
  | some event =>
    have number := lineNumber_event? told
    by_cases same : index = earlier.length
    · simp [Report.eventsOf, number, same]
    · have differs : ¬ event.lineNumber = index + 1 := by omega
      simp [Report.eventsOf, differs, same]

theorem eventsOf_append (before after : List Event) (number : Int) :
    Report.eventsOf ⟨before ++ after⟩ number = Report.eventsOf ⟨before⟩ number ++ Report.eventsOf ⟨after⟩ number := by
  simp [Report.eventsOf]

theorem eventsOf_events (lines : List Text) (index : Nat) :
    Report.eventsOf ⟨events lines⟩ (index + 1) = (lines[index]?.bind (event? (lines.take index))).toList := by
  induction lines using List.reverseRecOn with
  | nil => rfl
  | append_singleton lines line ih =>
    rw [events, collect_append_singleton, ← events, eventsOf_append, ih, eventsOf_event?]
    rcases Nat.lt_trichotomy index lines.length with before | rfl | behind
    · rw [if_neg (Nat.ne_of_lt before), List.append_nil, List.getElem?_append_left before,
        List.take_append_of_le_length (Nat.le_of_lt before)]
    · simp
    · have outside : (lines ++ [line])[index]? = none := List.getElem?_eq_none (by simpa [Nat.succ_le_iff] using behind)
      rw [if_neg (Nat.ne_of_gt behind), outside, List.getElem?_eq_none (Nat.le_of_lt behind)]
      rfl

theorem exists_outcome {lines : List Text} {index : Nat} {line : Text} (found : lines[index]? = some line) :
    ∃ outcome, Yields ⟨bindings (lines.take index)⟩ line outcome ∧
      Report.eventsOf ⟨events lines⟩ (index + 1) = outcome.events (index + 1) line := by
  obtain ⟨inside, -⟩ := List.getElem?_eq_some_iff.mp found
  obtain ⟨outcome, yields⟩ := exists_yields ⟨bindings (lines.take index)⟩ line
  refine ⟨outcome, yields, ?_⟩
  have tells := (yields_account yields).2
  rw [List.length_take_of_le (Nat.le_of_lt inside)] at tells
  rw [eventsOf_events, found, Option.bind_some, tells]

theorem told_events (lines : List Text) (index : Nat) :
    Report.told ⟨events lines⟩ index =
      ((lines[index]?.bind (event? (lines.take index))).map Event.unnumbered).toList := by
  show (Report.eventsOf ⟨events lines⟩ (index + 1)).map Event.unnumbered = _
  rw [eventsOf_events, Option.toList_map]

/-- Later lines change nothing in what is told of earlier ones. -/
theorem told_front {front : List Text} {index : Nat} (inside : index < front.length) (back : List Text) :
    Report.told ⟨events (front ++ back)⟩ index = Report.told ⟨events front⟩ index := by
  rw [told_events, told_events, List.getElem?_append_left inside,
    List.take_append_of_le_length (Nat.le_of_lt inside)]

theorem told_at (front : List Text) (line : Text) (back : List Text) :
    Report.told ⟨events (front ++ line :: back)⟩ front.length = ((event? front line).map Event.unnumbered).toList := by
  have found : (front ++ line :: back)[front.length]? = some line := by simp
  rw [told_events, found, List.take_left, Option.bind_some]

end Account
end LineCalc
