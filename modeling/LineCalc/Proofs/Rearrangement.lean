import LineCalc.Proofs.Frame
import Mathlib.Data.Nat.Count
import Mathlib.Logic.Equiv.Basic

/-!
Runs over the lines of a source without some of them, or in another order. Lines that bind nothing
can be left out (`Session.run_without`), and two adjacent lines that do not conflict can change
places (`Session.run_swapped`). Both follow from what an outcome depends on
(`Account.event?_frame`).
-/
namespace LineCalc

namespace Lines

/-- The lines whose indices are not dropped, in order. -/
def without (dropped : Nat → Bool) (lines : List Text) : List Text :=
  (lines.zipIdx.filter fun (_, index) => !dropped index).map Prod.fst

/-- How many of the indices before an index are not dropped. -/
def remaining (dropped : Nat → Bool) (index : Nat) : Nat := Nat.count (fun other => dropped other = false) index

theorem mem_of_mem_without {dropped : Nat → Bool} {lines : List Text} {line : Text}
    (member : line ∈ without dropped lines) : line ∈ lines := by
  obtain ⟨⟨other, index⟩, kept, rfl⟩ := List.mem_map.mp member
  exact List.fst_mem_of_mem_zipIdx (List.mem_filter.mp kept).1

theorem without_append (dropped : Nat → Bool) (front back : List Text) :
    ∃ more, without dropped (front ++ back) = without dropped front ++ more := by
  rw [without, List.zipIdx_append, List.filter_append, List.map_append]
  exact ⟨_, rfl⟩

theorem without_append_singleton (dropped : Nat → Bool) (lines : List Text) (line : Text) :
    without dropped (lines ++ [line]) = without dropped lines ++ if dropped lines.length then [] else [line] := by
  rw [without, List.zipIdx_append, List.filter_append, List.map_append]
  cases drop : dropped lines.length <;> simp [without, drop]

theorem length_without (dropped : Nat → Bool) (lines : List Text) :
    (without dropped lines).length = remaining dropped lines.length := by
  induction lines using List.reverseRecOn with
  | nil => rfl
  | append_singleton lines line ih =>
    rw [without_append_singleton, List.length_append, ih, List.length_append, List.length_singleton, remaining, remaining,
      Nat.count_succ]
    cases dropped lines.length <;> rfl

theorem without_at {dropped : Nat → Bool} {lines : List Text} {index : Nat} {line : Text}
    (found : lines[index]? = some line) (kept : dropped index = false) :
    (without dropped lines)[remaining dropped index]? = some line ∧
      (without dropped lines).take (remaining dropped index) = without dropped (lines.take index) := by
  obtain ⟨inside, -⟩ := List.getElem?_eq_some_iff.mp found
  have length : (lines.take index).length = index := List.length_take_of_le (Nat.le_of_lt inside)
  obtain ⟨more, whole⟩ := without_append dropped (lines.take (index + 1)) (lines.drop (index + 1))
  rw [List.take_append_drop, Account.take_next found, without_append_singleton, length, kept,
    if_neg Bool.false_ne_true, List.append_assoc] at whole
  have count : (without dropped (lines.take index)).length = remaining dropped index := by
    rw [length_without, length]
  constructor
  · rw [whole, List.getElem?_append_right (Nat.le_of_eq count), count, Nat.sub_self]
    rfl
  · rw [whole, ← count, List.take_left]

end Lines

namespace Account

/-! ## Lines that bind nothing -/

/-- No dropped line binds a name where it stands. -/
def Inert (dropped : Nat → Bool) (lines : List Text) : Prop :=
  ∀ index line, lines[index]? = some line → dropped index = true → binding? (lines.take index) line = none

theorem Inert.front {dropped : Nat → Bool} {front back : List Text} (inert : Inert dropped (front ++ back)) :
    Inert dropped front := by
  intro index line found drop
  obtain ⟨inside, -⟩ := List.getElem?_eq_some_iff.mp found
  have nothing := inert index line (by rw [List.getElem?_append_left inside, found]) drop
  rwa [List.take_append_of_le_length (Nat.le_of_lt inside)] at nothing

theorem firstValue?_of_bindings {lines other : List Text} (same : bindings lines = bindings other) (name : Text) :
    firstValue? name lines = firstValue? name other := by
  rw [← lookup?_bindings, ← lookup?_bindings, same]

/-- The lines that remain have all bindings when no dropped line has one. -/
theorem bindings_without {dropped : Nat → Bool} {lines : List Text} (inert : Inert dropped lines) :
    bindings (Lines.without dropped lines) = bindings lines := by
  induction lines using List.reverseRecOn with
  | nil => rfl
  | append_singleton lines line ih =>
    have before := ih inert.front
    rw [Lines.without_append_singleton, bindings.eq_1 (lines ++ [line]), collect_append_singleton, ← bindings]
    cases drop : dropped lines.length with
    | true =>
      have nothing := inert lines.length line (by simp) drop
      rw [List.take_left] at nothing
      simp [nothing, before]
    | false =>
      have same : binding? (Lines.without dropped lines) line = binding? lines line := by
        simp only [binding?, firstValue?_of_bindings before]
      rw [if_neg Bool.false_ne_true, bindings, collect_append_singleton, ← bindings, before, same]

theorem told_without {dropped : Nat → Bool} {lines : List Text} (inert : Inert dropped lines) {index : Nat} {line : Text}
    (found : lines[index]? = some line) (kept : dropped index = false) :
    Report.told ⟨events (Lines.without dropped lines)⟩ (Lines.remaining dropped index) =
      Report.told ⟨events lines⟩ index := by
  obtain ⟨stays, before⟩ := Lines.without_at found kept
  have front : Inert dropped (lines.take index) := by
    rw [← List.take_append_drop index lines] at inert
    exact inert.front
  have same : (event? (Lines.without dropped (lines.take index)) line).map Event.unnumbered =
      (event? (lines.take index) line).map Event.unnumbered :=
    event?_frame fun name _ => firstValue?_of_bindings (bindings_without front) name
  rw [told_events, told_events, stays, found, before, Option.bind_some, Option.bind_some, same]

/-! ## Lines that change places -/

/-- Two lines assign to the same name, or one assigns to a name that the other mentions. -/
def Conflict (a b : Text) : Prop :=
  (∃ name ∈ assigned? a, name ∈ assigned? b) ∨ (∃ name ∈ assigned? a, name ∈ mentioned b) ∨
    ∃ name ∈ assigned? b, name ∈ mentioned a

instance (a b : Text) : Decidable (Conflict a b) := inferInstanceAs (Decidable (_ ∨ _ ∨ _))

theorem Conflict.symm {a b : Text} (conflict : Conflict a b) : Conflict b a := by
  rcases conflict with ⟨name, byA, byB⟩ | first | second
  · exact Or.inl ⟨name, byB, byA⟩
  · exact Or.inr (Or.inr first)
  · exact Or.inr (Or.inl second)

theorem firstValue?_independent {a b : Text} (independent : ¬ Conflict a b) {name : Text} (member : name ∈ concerned a) :
    firstValue? name [b] = none := by
  refine firstValue?_other fun assigned => independent ?_
  rcases List.mem_append.mp member with assigns | mentions
  · exact Or.inl ⟨name, Option.mem_toList.mp assigns, assigned⟩
  · exact Or.inr (Or.inr ⟨name, assigned, mentions⟩)

/-- Of a line is told the same behind a line that it does not conflict with. -/
theorem event?_past {a b : Text} (independent : ¬ Conflict a b) (front : List Text) :
    (event? (front ++ [b]) a).map Event.unnumbered = (event? front a).map Event.unnumbered := by
  refine event?_frame fun name member => ?_
  rw [firstValue?_append, firstValue?_independent independent member, Option.or_none]

theorem firstValue?_swap {a b : Text} (independent : ¬ Conflict a b) (front back : List Text) (name : Text) :
    firstValue? name (front ++ b :: a :: back) = firstValue? name (front ++ a :: b :: back) := by
  have apart : ∀ x y : Text, firstValue? name (front ++ x :: y :: back) =
      (firstValue? name front).or (((firstValue? name [x]).or (firstValue? name [y])).or (firstValue? name back)) := by
    intro x y
    have pieces : front ++ x :: y :: back = front ++ ([x] ++ [y] ++ back) := by simp
    rw [pieces, firstValue?_append, firstValue?_append, firstValue?_append]
  rw [apart, apart]
  by_cases assigned : assigned? a = some name
  · have concerns : name ∈ concerned a := by simp [concerned, assigned]
    rw [firstValue?_independent independent concerns, Option.or_none, Option.none_or]
  · rw [firstValue?_other assigned, Option.or_none, Option.none_or]

/-- Of every line is told the same when two lines that do not conflict change places. -/
theorem told_swap {a b : Text} (independent : ¬ Conflict a b) (front back : List Text) (index : Nat) :
    Report.told ⟨events (front ++ b :: a :: back)⟩ (Equiv.swap front.length (front.length + 1) index) =
      Report.told ⟨events (front ++ a :: b :: back)⟩ index := by
  have behind : ∀ x y : Text, front ++ x :: y :: back = front ++ [x] ++ y :: back := fun x y => by simp
  have length : ∀ x : Text, (front ++ [x]).length = front.length + 1 := fun x => by simp
  rcases Nat.lt_trichotomy index front.length with before | rfl | later
  · have fixed : Equiv.swap front.length (front.length + 1) index = index :=
      Equiv.swap_apply_of_ne_of_ne (by omega) (by omega)
    rw [fixed, told_front before, told_front before]
  · rw [Equiv.swap_apply_left, told_at, behind, ← length b, told_at, event?_past independent]
  · obtain ⟨past, rfl⟩ : ∃ past, index = front.length + (past + 1) := ⟨index - front.length - 1, by omega⟩
    cases past with
    | zero =>
      have reversed : ¬ Conflict b a := fun conflict => independent conflict.symm
      rw [Equiv.swap_apply_right, told_at, behind a b, Nat.zero_add, ← length a, told_at, event?_past reversed]
    | succ past =>
      have fixed : Equiv.swap front.length (front.length + 1) (front.length + (past + 2)) = front.length + (past + 2) :=
        Equiv.swap_apply_of_ne_of_ne (by omega) (by omega)
      have found : ∀ x y : Text, (front ++ x :: y :: back)[front.length + (past + 2)]? = back[past]? := by
        intro x y
        simp [List.getElem?_append_right]
      rw [fixed, told_events, told_events, found, found, List.take_length_add_append, List.take_length_add_append]
      cases back[past]? with
      | none => rfl
      | some line =>
        have same : (event? (front ++ b :: a :: back.take past) line).map Event.unnumbered =
            (event? (front ++ a :: b :: back.take past) line).map Event.unnumbered :=
          event?_frame fun name _ => firstValue?_swap independent front (back.take past) name
        exact congrArg Option.toList same

end Account

namespace Session

/-- The environment of a run behind the first lines of its source. -/
def environmentBehind? (verbose : Bool) (source : Text) (count : Nat) : Option Environment :=
  (advance count (start verbose source)).toOption.map Session.environment

theorem environmentBehind?_eq (verbose : Bool) {source : Text} {count : Nat}
    (inside : count ≤ (Lines.ofText source).length) :
    environmentBehind? verbose source count = some ⟨Account.bindings ((Lines.ofText source).take count)⟩ := by
  obtain ⟨session, advanced, -, -, known⟩ := Account.advance_start verbose inside
  rw [environmentBehind?, advanced, ← known]
  rfl

theorem inert_of_environmentBehind? {verbose : Bool} {source : Text} {dropped : Nat → Bool}
    (unchanged : ∀ index < (Lines.ofText source).length, dropped index = true →
      environmentBehind? verbose source (index + 1) = environmentBehind? verbose source index) :
    Account.Inert dropped (Lines.ofText source) := by
  intro index line found drop
  obtain ⟨inside, -⟩ := List.getElem?_eq_some_iff.mp found
  have same := unchanged index inside drop
  rw [environmentBehind?_eq verbose inside, environmentBehind?_eq verbose (Nat.le_of_lt inside), Account.take_next found,
    Account.bindings, Account.collect_append_singleton, ← Account.bindings] at same
  have nothing : (Account.binding? ((Lines.ofText source).take index) line).toList = [] := by simpa using same
  exact Option.toList_eq_nil_iff.mp nothing

/-- Lines behind which the environment is as before can be left out of a source: the run
    ends in the same environment, and of each line that remains the same is told. -/
theorem run_without (verbose : Bool) (source : Text) (dropped : Nat → Bool)
    (unchanged : ∀ index < (Lines.ofText source).length, dropped index = true →
      environmentBehind? verbose source (index + 1) = environmentBehind? verbose source index) :
    ∃ whole less, (start verbose source).run = .ok whole ∧
      (start verbose (Lines.ended (Lines.without dropped (Lines.ofText source)))).run = .ok less ∧
      less.lines = Lines.without dropped (Lines.ofText source) ∧ less.environment = whole.environment ∧
      ∀ index < (Lines.ofText source).length, dropped index = false →
        less.lines[Lines.remaining dropped index]? = (Lines.ofText source)[index]? ∧
          less.report.told (Lines.remaining dropped index) = whole.report.told index := by
  have inert := inert_of_environmentBehind? unchanged
  obtain ⟨whole, ranWhole, -, boundWhole, toldWhole⟩ := Account.run_accounts verbose source
  obtain ⟨less, ranLess, linesLess, boundLess, toldLess⟩ :=
    Account.run_accounts verbose (Lines.ended (Lines.without dropped (Lines.ofText source)))
  have free : ∀ line ∈ Lines.without dropped (Lines.ofText source), '\r' ∉ line ∧ '\n' ∉ line := fun line member =>
    Lines.free_of_ends (Lines.mem_of_mem_without member)
  rw [Lines.ofText_ended free] at linesLess boundLess toldLess
  refine ⟨whole, less, ranWhole, ranLess, linesLess, ?_, ?_⟩
  · rw [boundLess, boundWhole, Account.bindings_without inert]
  · intro index inside kept
    have found : (Lines.ofText source)[index]? = some (Lines.ofText source)[index] := List.getElem?_eq_getElem inside
    rw [linesLess, toldLess, toldWhole, found]
    exact ⟨(Lines.without_at found kept).1, Account.told_without inert found kept⟩

theorem run_without_failing_lines :
    (∀ index < 6, (1 ≤ index && index ≤ 4) = true →
      environmentBehind? false "x := 2\n# two\nx / 0\nx := 3\ny\nx * 21".toList (index + 1) =
        environmentBehind? false "x := 2\n# two\nx / 0\nx := 3\ny\nx * 21".toList index) ∧
    ∃ whole less, (start false "x := 2\n# two\nx / 0\nx := 3\ny\nx * 21".toList).run = .ok whole ∧
      (start false "x := 2\nx * 21\n".toList).run = .ok less ∧
      less.environment = whole.environment ∧ less.report.told 1 = whole.report.told 5 := by
  have unchanged : ∀ index < 6, (1 ≤ index && index ≤ 4) = true →
      environmentBehind? false "x := 2\n# two\nx / 0\nx := 3\ny\nx * 21".toList (index + 1) =
        environmentBehind? false "x := 2\n# two\nx / 0\nx := 3\ny\nx * 21".toList index := by decide +kernel
  have count : (Lines.ofText "x := 2\n# two\nx / 0\nx := 3\ny\nx * 21".toList).length = 6 := by decide +kernel
  obtain ⟨whole, less, ranWhole, ranLess, -, bound, told⟩ :=
    run_without false "x := 2\n# two\nx / 0\nx := 3\ny\nx * 21".toList (fun index => 1 ≤ index && index ≤ 4)
      (by rw [count]; exact unchanged)
  have kept : Lines.ended (Lines.without (fun index => 1 ≤ index && index ≤ 4)
      (Lines.ofText "x := 2\n# two\nx / 0\nx := 3\ny\nx * 21".toList)) = "x := 2\nx * 21\n".toList := by decide +kernel
  rw [kept] at ranLess
  rw [count] at told
  exact ⟨unchanged, whole, less, ranWhole, ranLess, bound, (told 5 (by decide) rfl).2⟩

/-- Two adjacent lines that do not conflict can change places: every name ends with the
    same value, and of each line the same is told. -/
theorem run_swapped (verbose : Bool) {source swapped : Text} {front back : List Text} {a b : Text}
    (lines : Lines.ofText source = front ++ a :: b :: back)
    (swappedLines : Lines.ofText swapped = front ++ b :: a :: back) (independent : ¬ Account.Conflict a b) :
    ∃ first second, (start verbose source).run = .ok first ∧ (start verbose swapped).run = .ok second ∧
      (∀ name, second.environment.lookup? name = first.environment.lookup? name) ∧
      ∀ index, second.report.told (Equiv.swap front.length (front.length + 1) index) = first.report.told index := by
  obtain ⟨first, ranFirst, -, boundFirst, toldFirst⟩ := Account.run_accounts verbose source
  obtain ⟨second, ranSecond, -, boundSecond, toldSecond⟩ := Account.run_accounts verbose swapped
  rw [lines] at boundFirst toldFirst
  rw [swappedLines] at boundSecond toldSecond
  refine ⟨first, second, ranFirst, ranSecond, ?_, ?_⟩
  · intro name
    rw [boundFirst, boundSecond, Account.lookup?_bindings, Account.lookup?_bindings,
      Account.firstValue?_swap independent front back name]
  · intro index
    rw [toldFirst, toldSecond]
    exact Account.told_swap independent front back index

theorem run_swapped_binding :
    Lines.ofText "x := 2\ny := 4\nx / 0\ny - x".toList = ["x := 2", "y := 4", "x / 0", "y - x"].map String.toList ∧
    Lines.ofText "x := 2\nx / 0\ny := 4\ny - x".toList = ["x := 2", "x / 0", "y := 4", "y - x"].map String.toList ∧
    ¬ Account.Conflict "y := 4".toList "x / 0".toList ∧
    ∃ first second, (start false "x := 2\ny := 4\nx / 0\ny - x".toList).run = .ok first ∧
      (start false "x := 2\nx / 0\ny := 4\ny - x".toList).run = .ok second ∧
      (∀ name, second.environment.lookup? name = first.environment.lookup? name) ∧
      second.report.told 1 = first.report.told 2 ∧ second.report.told 3 = first.report.told 3 := by
  have lines : Lines.ofText "x := 2\ny := 4\nx / 0\ny - x".toList =
      ["x := 2", "y := 4", "x / 0", "y - x"].map String.toList := by decide +kernel
  have swapped : Lines.ofText "x := 2\nx / 0\ny := 4\ny - x".toList =
      ["x := 2", "x / 0", "y := 4", "y - x"].map String.toList := by decide +kernel
  have independent : ¬ Account.Conflict "y := 4".toList "x / 0".toList := by decide +kernel
  obtain ⟨first, second, ranFirst, ranSecond, same, told⟩ :=
    @run_swapped false _ _ ["x := 2".toList] ["y - x".toList] _ _ lines swapped independent
  exact ⟨lines, swapped, independent, first, second, ranFirst, ranSecond, same, told 2, told 3⟩

end Session
end LineCalc
