import LineCalc.Artifact

/-!
Views of views. A view is JSON itself, so it can be shown down to a depth again, and all parts of
an artifact bear this but one: a record shows its type beside its fields without counting it as a
part, whereas in the view the type is a part like the others (`Artifact.viewAt_type_eq_iff`).
-/
namespace LineCalc.Artifact

/-- The parts of an artifact, which lie one level deeper than the artifact. -/
def parts : Artifact → List Artifact
  | list items => items
  | dictionary entries => entries.map Prod.snd
  | record _ fields => fields.map Prod.snd
  | absent | truth _ | integer _ | real _ | text _ | numeral _ | constant _ | other _ => []

/-- A record lies at a level of an artifact, which is itself at level zero. -/
inductive RecordAt : Nat → Artifact → Prop
  | here {type : Text} {fields : List (Text.Units × Artifact)} : RecordAt 0 (record type fields)
  | part {level : Nat} {artifact part : Artifact} :
      part ∈ artifact.parts → RecordAt level part → RecordAt (level + 1) artifact

/-- No record lies at the depth down to which an artifact is shown that lies at a depth itself. -/
def EdgeFree (maxDepth : Int) (depth : Nat) (artifact : Artifact) : Prop :=
  ∀ level, RecordAt level artifact → (depth + level : Int) ≠ maxDepth

theorem sizeOf_part_lt {artifact part : Artifact} (member : part ∈ artifact.parts) : sizeOf part < sizeOf artifact := by
  cases artifact with
  | list items =>
    have inside : part ∈ items := member
    have smaller := List.sizeOf_lt_of_mem inside
    simp only [list.sizeOf_spec]
    omega
  | dictionary entries =>
    obtain ⟨⟨key, value⟩, inside, rfl⟩ := List.mem_map.mp member
    have smaller := List.sizeOf_lt_of_mem inside
    simp only [dictionary.sizeOf_spec, Prod.mk.sizeOf_spec] at smaller ⊢
    omega
  | record type fields =>
    obtain ⟨⟨key, value⟩, inside, rfl⟩ := List.mem_map.mp member
    have smaller := List.sizeOf_lt_of_mem inside
    simp only [record.sizeOf_spec, Prod.mk.sizeOf_spec] at smaller ⊢
    omega
  | absent | truth | integer | real | text | numeral | constant | other => simp [parts] at member

/-- What holds of an artifact whenever it holds of its parts holds of every artifact. -/
@[elab_as_elim]
theorem parts_induction {motive : Artifact → Prop}
    (whole : ∀ artifact, (∀ part ∈ artifact.parts, motive part) → motive artifact) (artifact : Artifact) : motive artifact :=
  whole artifact fun part _ => parts_induction whole part
termination_by sizeOf artifact
decreasing_by exact sizeOf_part_lt ‹_›

/-! ## Views part by part -/

theorem viewItems_eq (maxDepth : Int) (depth : Nat) (items : List Artifact) :
    viewItems maxDepth depth items = items.map (viewAt maxDepth depth) := by
  induction items with
  | nil => simp [viewItems]
  | cons item rest ih => simp [viewItems, ih]

theorem viewFields_eq (maxDepth : Int) (depth : Nat) (fields : List (Text.Units × Artifact)) :
    viewFields maxDepth depth fields = fields.map fun (key, value) => (key, viewAt maxDepth depth value) := by
  induction fields with
  | nil => simp [viewFields]
  | cons field rest ih => simp [viewFields, ih]

theorem ofItems_eq (items : List Json) : ofItems items = items.map ofJson := by
  induction items with
  | nil => simp [ofItems]
  | cons item rest ih => simp [ofItems, ih]

theorem ofFields_eq (fields : List (Text.Units × Json)) :
    ofFields fields = fields.map fun (key, value) => (key, ofJson value) := by
  induction fields with
  | nil => simp [ofFields]
  | cons field rest ih => simp [ofFields, ih]

theorem viewAt_deep {maxDepth : Int} {depth : Nat} (deep : maxDepth < depth) (artifact : Artifact) :
    viewAt maxDepth depth artifact = truncated := by
  cases artifact <;> simp [viewAt, deep]

section
variable {maxDepth : Int} {depth : Nat} (shown : ¬ maxDepth < depth)
include shown

theorem viewAt_list (items : List Artifact) :
    viewAt maxDepth depth (list items) = .arr (items.map (viewAt maxDepth (depth + 1))) := by
  rw [viewAt, if_neg shown, viewItems_eq]

theorem viewAt_dictionary (entries : List (Text.Units × Artifact)) :
    viewAt maxDepth depth (dictionary entries) =
      .obj (entries.map fun (key, value) => (key, viewAt maxDepth (depth + 1) value)) := by
  rw [viewAt, if_neg shown, viewFields_eq]

theorem viewAt_record (type : Text) (fields : List (Text.Units × Artifact)) :
    viewAt maxDepth depth (record type fields) =
      .obj ((typeKey, .ofText type) :: fields.map fun (key, value) => (key, viewAt maxDepth (depth + 1) value)) := by
  rw [viewAt, if_neg shown, viewFields_eq]

end

/-! ## Where no record lies at the edge -/

theorem recordAt_zero_iff {artifact : Artifact} : RecordAt 0 artifact ↔ ∃ type fields, artifact = record type fields := by
  constructor
  · rintro ⟨⟩
    exact ⟨_, _, rfl⟩
  · rintro ⟨type, fields, rfl⟩
    exact .here

theorem recordAt_succ_iff {level : Nat} {artifact : Artifact} :
    RecordAt (level + 1) artifact ↔ ∃ part ∈ artifact.parts, RecordAt level part := by
  constructor
  · rintro (_ | ⟨member, record⟩)
    exact ⟨_, member, record⟩
  · rintro ⟨part, member, record⟩
    exact .part member record

theorem edgeFree_iff {maxDepth : Int} {depth : Nat} {artifact : Artifact} :
    EdgeFree maxDepth depth artifact ↔
      (RecordAt 0 artifact → (depth : Int) ≠ maxDepth) ∧ ∀ part ∈ artifact.parts, EdgeFree maxDepth (depth + 1) part := by
  constructor
  · intro free
    refine ⟨fun record => by simpa using free 0 record, fun part member level record => ?_⟩
    have deeper := free (level + 1) (.part member record)
    omega
  · rintro ⟨top, below⟩ level record
    cases record with
    | here => simpa using top .here
    | part member record =>
      have deeper := below _ member _ record
      omega

/-! ## Views of views -/

theorem viewAt_type_eq_iff {maxDepth : Int} {depth : Nat} (shown : ¬ maxDepth < depth) (type : Text) :
    viewAt maxDepth (depth + 1) (ofJson (.ofText type)) = .ofText type ↔ (depth : Int) ≠ maxDepth := by
  simp only [Json.ofText, ofJson, viewAt]
  split
  next deep =>
    refine iff_of_false (by simp [truncated]) ?_
    omega
  next inside =>
    refine iff_of_true rfl ?_
    omega

theorem map_entries_inj {f g : Artifact → Json} {entries : List (Text.Units × Artifact)} :
    (entries.map fun (key, value) => (key, f value)) = (entries.map fun (key, value) => (key, g value)) ↔
      ∀ part ∈ entries.map Prod.snd, f part = g part := by
  simp only [List.map_inj_left, List.forall_mem_map, Prod.mk.injEq, true_and]

/-- Above both depths a view is shown as the artifact is, if its parts are and its type is. -/
theorem viewAt_view_shown {m n : Int} {depth : Nat} (shown : ¬ m < depth) (within : m ≤ n) (artifact : Artifact) :
    viewAt m depth (ofJson (viewAt n depth artifact)) = viewAt m depth artifact ↔
      (RecordAt 0 artifact → (depth : Int) ≠ m) ∧
        ∀ part ∈ artifact.parts, viewAt m (depth + 1) (ofJson (viewAt n (depth + 1) part)) = viewAt m (depth + 1) part := by
  have first : ¬ n < depth := by omega
  rw [recordAt_zero_iff]
  cases artifact with
  | list items =>
    rw [viewAt_list first, viewAt_list shown, ofJson, ofItems_eq, viewAt_list shown, List.map_map, List.map_map,
      Json.arr.injEq, List.map_inj_left]
    simp [parts]
  | dictionary entries =>
    rw [viewAt_dictionary first, viewAt_dictionary shown, ofJson, ofFields_eq, viewAt_dictionary shown, List.map_map,
      List.map_map, Json.obj.injEq, parts, ← map_entries_inj]
    simp [Function.comp_def]
  | record type fields =>
    rw [viewAt_record first, viewAt_record shown, ofJson, ofFields_eq, viewAt_dictionary shown, List.map_map,
      List.map_cons, Json.obj.injEq, List.cons.injEq, parts, ← map_entries_inj]
    simp [Function.comp_def, viewAt_type_eq_iff shown]
  | absent | truth | integer | real | text | numeral | constant | other =>
    simp [viewAt, shown, first, ofJson, parts, Json.ofText]

theorem viewAt_viewAt_iff {m n : Int} (within : m ≤ n) (artifact : Artifact) (depth : Nat) :
    viewAt m depth (ofJson (viewAt n depth artifact)) = viewAt m depth artifact ↔ EdgeFree m depth artifact := by
  induction artifact using parts_induction generalizing depth with
  | whole artifact ih =>
    by_cases deep : m < depth
    · rw [viewAt_deep deep, viewAt_deep deep]
      refine iff_of_true rfl fun level _ => ?_
      omega
    · rw [viewAt_view_shown deep within, edgeFree_iff]
      exact and_congr_right fun _ => forall₂_congr fun part member => ih part member (depth + 1)

/-- A view that is shown down to a depth again is the view down to that depth exactly if no record
    lies at that depth. Such a record is shown with its type in one step, and with the marker in
    place of it in two. -/
theorem view_view_iff {m n : Int} (within : m ≤ n) (artifact : Artifact) :
    view m (ofJson (view n artifact)) = view m artifact ↔ ∀ level : Nat, RecordAt level artifact → (level : Int) ≠ m := by
  simpa [EdgeFree, view] using viewAt_viewAt_iff within artifact 0

theorem view_view_iff_sum :
    view 2 (ofJson (view 64 (ofExpr (.binary .plus (.leaf (.literal ['1'])) (.leaf (.reference ['x'])))))) =
      view 2 (ofExpr (.binary .plus (.leaf (.literal ['1'])) (.leaf (.reference ['x'])))) ∧
    view 1 (ofJson (view 64 (ofExpr (.binary .plus (.leaf (.literal ['1'])) (.leaf (.reference ['x'])))))) ≠
      view 1 (ofExpr (.binary .plus (.leaf (.literal ['1'])) (.leaf (.reference ['x'])))) := by
  constructor
  · refine (view_view_iff (by decide) _).mpr fun level record edge => ?_
    obtain rfl : level = 2 := by omega
    simp [recordAt_succ_iff, recordAt_zero_iff, parts, ofExpr, ofOperand, ofFieldList, ofText] at record
  · intro same
    refine (view_view_iff (by decide) _).mp same 1 (recordAt_succ_iff.mpr ⟨ofOperand (.literal ['1']), ?_, .here⟩) rfl
    simp [parts, ofExpr, ofOperand, ofFieldList, ofText]

/-- The view of a number in a source, which shows its type alone, is not what that view is shown as. -/
theorem view_view_literal :
    view 0 (ofOperand (.literal ['1'])) =
      .obj [(typeKey, .ofText "Literal".toList), (Text.units "text".toList, truncated)] ∧
    view 0 (ofJson (view 0 (ofOperand (.literal ['1'])))) =
      .obj [(typeKey, truncated), (Text.units "text".toList, truncated)] ∧
    view 0 (ofJson (view 0 (ofOperand (.literal ['1'])))) ≠ view 0 (ofOperand (.literal ['1'])) := by
  refine ⟨rfl, rfl, ?_⟩
  simp [view, viewAt, viewFields, ofJson, ofFields, ofOperand, ofFieldList, truncated, Json.ofText]

end LineCalc.Artifact
