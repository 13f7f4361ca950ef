import LineCalc.Proofs.Account

/-!
Runs that are cut. What a session has bound and told behind a number of lines is what a run over
these lines alone binds and tells, and a run from there on ends where a run over all lines does
(`Session.advance_run`).
-/
namespace LineCalc

namespace Lines

/-- The first lines of a text are the lines of a beginning of it. -/
theorem exists_front {source : Text} {count : Nat} (inside : count ≤ (ofText source).length) :
    ∃ front, front <+: source ∧ ofText front = (ofText source).take count := by
  fun_induction ofText source generalizing count with
  | case1 => exact ⟨[], List.prefix_refl _, by simp [ofText]⟩
  | case2 rest ih =>
    cases count with
    | zero => exact ⟨[], List.nil_prefix, rfl⟩
    | succ count =>
      obtain ⟨front, begins, lines⟩ := ih (Nat.le_of_succ_le_succ inside)
      refine ⟨'\r' :: '\n' :: front, by simpa using begins, ?_⟩
      rw [ofText, lines, List.take_succ_cons]
  | case3 rest notFeed ih =>
    cases count with
    | zero => exact ⟨[], List.nil_prefix, rfl⟩
    | succ count =>
      obtain ⟨front, begins, lines⟩ := ih (Nat.le_of_succ_le_succ inside)
      refine ⟨'\r' :: front, by simpa using begins, ?_⟩
      -- With a line feed behind it the return would have been read as half of a pair.
      have apart : front.head? ≠ some '\n' := by
        intro feed
        obtain ⟨more, rfl⟩ := List.head?_eq_some_iff.mp feed
        obtain ⟨behind, rfl⟩ := begins
        exact notFeed _ rfl
      rw [ofText_return apart, lines, List.take_succ_cons]
  | case4 rest ih =>
    cases count with
    | zero => exact ⟨[], List.nil_prefix, rfl⟩
    | succ count =>
      obtain ⟨front, begins, lines⟩ := ih (Nat.le_of_succ_le_succ inside)
      refine ⟨'\n' :: front, by simpa using begins, ?_⟩
      rw [ofText, lines, List.take_succ_cons]
  | case5 c rest _ notReturn notFeed ih =>
    cases count with
    | zero => exact ⟨[], List.nil_prefix, rfl⟩
    | succ count =>
      cases known : ofText rest with
      | nil =>
        -- The character is the whole last line.
        refine ⟨[c], by simp, ?_⟩
        rw [ofText_plain notReturn notFeed]
        simp [ofText, extendFirst]
      | cons first more =>
        rw [known] at ih inside
        obtain ⟨front, begins, lines⟩ := ih inside
        refine ⟨c :: front, by simpa using begins, ?_⟩
        rw [ofText_plain notReturn notFeed, lines]
        rfl

end Lines

namespace Session

/-- A run from behind the first lines ends where a run over all lines ends. -/
theorem run_of_advance {session behind : Session} {count : Nat} (advanced : advance count session = .ok behind)
    (sameLines : behind.lines = session.lines) (cursor : behind.cursor = session.cursor + count)
    (inside : behind.cursor ≤ behind.lines.length) : behind.run = session.run := by
  have steps : session.lines.length - session.cursor + 1 = count + (behind.lines.length - behind.cursor + 1) := by
    rw [sameLines] at inside ⊢
    omega
  rw [run, run, steps, advance_add count, advanced]
  rfl

/-- A source of the first lines alone is made by ending each of them, and the source itself begins
    with one. -/
theorem advance_run (verbose : Bool) {source : Text} {count : Nat} (inside : count ≤ (Lines.ofText source).length) :
    (∃ behind whole, advance count (start verbose source) = .ok behind ∧ (start verbose source).run = .ok whole ∧
      behind.run = .ok whole ∧ ∀ front, Lines.ofText front = (Lines.ofText source).take count →
        ∃ short, (start verbose front).run = .ok short ∧ short.environment = behind.environment ∧
          short.report = behind.report) ∧
    Lines.ofText (Lines.ended ((Lines.ofText source).take count)) = (Lines.ofText source).take count ∧
    ∃ front, front <+: source ∧ Lines.ofText front = (Lines.ofText source).take count := by
  refine ⟨?_, ?_, Lines.exists_front inside⟩
  · obtain ⟨behind, advanced, accounts, sameLines, cursor⟩ := Account.advance_accounts verbose inside
    obtain ⟨whole, ran, -⟩ := Account.run_accounts verbose source
    have bound := accounts.bindings
    have told := accounts.events
    rw [cursor, sameLines] at bound told
    refine ⟨behind, whole, advanced, ran, ?_, ?_⟩
    · rw [run_of_advance advanced sameLines (by simpa [start] using cursor) accounts.inside]
      exact ran
    · intro front first
      obtain ⟨short, ranShort, -, boundShort, toldShort⟩ := Account.run_accounts verbose front
      refine ⟨short, ranShort, ?_, ?_⟩
      · rw [boundShort, first, ← bound]
      · rw [toldShort, first, ← told]
  · refine Lines.ofText_ended ?_
    intro line member
    exact Lines.free_of_ends (List.mem_of_mem_take member)

theorem advance_run_empty_line :
    3 ≤ (Lines.ofText "x := 2\r\nx / 0\n\r\nx := 3\nx * 21".toList).length ∧
    Lines.ofText "x := 2\nx / 0\n\n".toList = (Lines.ofText "x := 2\r\nx / 0\n\r\nx := 3\nx * 21".toList).take 3 ∧
    ∃ behind whole short, advance 3 (start false "x := 2\r\nx / 0\n\r\nx := 3\nx * 21".toList) = .ok behind ∧
      (start false "x := 2\r\nx / 0\n\r\nx := 3\nx * 21".toList).run = .ok whole ∧ behind.run = .ok whole ∧
      (start false "x := 2\nx / 0\n\n".toList).run = .ok short ∧ short.environment = behind.environment ∧
      short.report = behind.report := by
  have inside : 3 ≤ (Lines.ofText "x := 2\r\nx / 0\n\r\nx := 3\nx * 21".toList).length := by decide +kernel
  have first : Lines.ofText "x := 2\nx / 0\n\n".toList =
      (Lines.ofText "x := 2\r\nx / 0\n\r\nx := 3\nx * 21".toList).take 3 := by decide +kernel
  obtain ⟨⟨behind, whole, advanced, ran, runOn, alone⟩, -⟩ := advance_run false inside
  obtain ⟨short, ranShort, bound, told⟩ := alone _ first
  exact ⟨inside, first, behind, whole, short, advanced, ran, runOn, ranShort, bound, told⟩

end Session
end LineCalc
