import LineCalc.Proofs.Views

/-!
Statements back from their views. The text of an operand lies one level below the operand, which
lies one level below each operation that it is part of; so the view of a tree holds the marker
exactly if some operand lies too deep (`Expr.hasKey_viewAt_iff`). A view without the marker is
read back as the tree (`Expr.ofView?_viewAt`).
-/
namespace LineCalc
open Artifact

/-- A key stands in a value, at any place. -/
inductive Json.HasKey (key : Text.Units) : Json → Prop
  | here {value : Json} {fields : List (Text.Units × Json)} : (key, value) ∈ fields → HasKey key (obj fields)
  | field {name : Text.Units} {value : Json} {fields : List (Text.Units × Json)} :
      (name, value) ∈ fields → HasKey key value → HasKey key (obj fields)
  | item {value : Json} {items : List Json} : value ∈ items → HasKey key value → HasKey key (arr items)

def Artifact.truncationKey : Text.Units := Text.units "_truncated".toList

namespace Expr

/-- The language knows every operand of the tree. -/
def IsKnown : Expr → Prop
  | leaf operand => operand ≠ .unsupported
  | binary _ left right => left.IsKnown ∧ right.IsKnown

instance decidableIsKnown : (tree : Expr) → Decidable tree.IsKnown
  | leaf _ => inferInstanceAs (Decidable (_ ≠ _))
  | binary _ left right => @instDecidableAnd _ _ (decidableIsKnown left) (decidableIsKnown right)

/-- The count of operations that each operand lies under, from left to right. -/
def operandDepths : Expr → List Nat
  | leaf _ => [0]
  | binary _ left right => (left.operandDepths ++ right.operandDepths).map (· + 1)

/-- An operand shows its type and its text, an operation its type and three parts. -/
def ofView? : Json → Option Expr
  | .obj [(_, .str type), (_, .str content)] =>
    if type = Text.units "Literal".toList then (Text.ofUnits? content).map fun digits => leaf (.literal digits)
    else if type = Text.units "Variable".toList then (Text.ofUnits? content).map fun name => leaf (.reference name)
    else none
  | .obj [_, (_, .str operator), (_, left), (_, right)] => do
    let name ← Text.ofUnits? operator
    return binary (← TokenKind.ofName? name) (← ofView? left) (← ofView? right)
  | _ => none

end Expr

namespace Statement

def IsKnown : Statement → Prop
  | comment _ | assignment _ _ _ => True
  | expression tree => tree.IsKnown
  | unsupported => False

instance : (statement : Statement) → Decidable statement.IsKnown
  | comment _ | assignment _ _ _ => isTrue trivial
  | expression tree => Expr.decidableIsKnown tree
  | unsupported => isFalse id

/-- Only an expression has operands. -/
def operandDepths : Statement → List Nat
  | expression tree => tree.operandDepths
  | comment _ | assignment _ _ _ | unsupported => []

/-- A comment shows a text and an expression a tree behind the type, an assignment three parts. -/
def ofView? : Json → Option Statement
  | .obj [_, (_, .str content)] => (Text.ofUnits? content).map comment
  | .obj [_, (_, tree)] => (Expr.ofView? tree).map expression
  | .obj [_, (_, .str name), (_, .str valueText), (_, .int column)] => do
    return assignment (← Text.ofUnits? name) (← Text.ofUnits? valueText) column
  | _ => none

end Statement

theorem TokenKind.ofName?_name (kind : TokenKind) : ofName? kind.name = some kind := by cases kind <;> decide

/-! ## Where the marker stands -/

theorem Json.hasKey_obj {key : Text.Units} {fields : List (Text.Units × Json)} :
    HasKey key (obj fields) ↔ ∃ field ∈ fields, field.1 = key ∨ HasKey key field.2 := by
  constructor
  · rintro (member | ⟨member, inside⟩)
    · exact ⟨_, member, Or.inl rfl⟩
    · exact ⟨_, member, Or.inr inside⟩
  · rintro ⟨⟨name, value⟩, member, rfl | inside⟩
    · exact .here member
    · exact .field member inside

namespace Artifact

variable {maxDepth : Int} {depth : Nat}

theorem hasKey_truncated : Json.HasKey truncationKey truncated := .here List.mem_cons_self

theorem units_ne_truncationKey {name : String} (apart : name ≠ "_truncated") :
    Text.units name.toList ≠ truncationKey := by
  intro same
  have read := congrArg Text.ofUnits? same
  rw [truncationKey, Text.ofUnits?_units, Text.ofUnits?_units] at read
  exact apart (String.toList_injective (Option.some.inj read))

theorem hasKey_viewAt_word {artifact : Artifact} {word : Json}
    (isWord : viewAt maxDepth depth artifact = if maxDepth < depth then truncated else word)
    (plain : ¬ Json.HasKey truncationKey word) :
    Json.HasKey truncationKey (viewAt maxDepth depth artifact) ↔ maxDepth < depth := by
  rw [isWord]
  split
  next deep => exact iff_of_true hasKey_truncated deep
  next shown => exact iff_of_false plain shown

theorem hasKey_viewAt_text (content : Text) :
    Json.HasKey truncationKey (viewAt maxDepth depth (ofText content)) ↔ maxDepth < depth :=
  hasKey_viewAt_word (by rw [ofText, viewAt]) (by rintro ⟨⟩)

theorem hasKey_viewAt_constant (name : Text) :
    Json.HasKey truncationKey (viewAt maxDepth depth (constant name)) ↔ maxDepth < depth :=
  hasKey_viewAt_word (by rw [viewAt]) (by rintro ⟨⟩)

theorem hasKey_viewAt_integer (n : Int) :
    Json.HasKey truncationKey (viewAt maxDepth depth (integer n)) ↔ maxDepth < depth :=
  hasKey_viewAt_word (by rw [viewAt]) (by rintro ⟨⟩)

theorem viewAt_ofFieldList (shown : ¬ maxDepth < depth) (type : String) (fields : List (String × Artifact)) :
    viewAt maxDepth depth (ofFieldList type fields) =
      .obj ((typeKey, .ofText type.toList) ::
        fields.map fun (key, value) => (Text.units key.toList, viewAt maxDepth (depth + 1) value)) := by
  rw [ofFieldList, viewAt_record shown, List.map_map]
  rfl

theorem viewAt_ofText (shown : ¬ maxDepth < depth) (content : Text) :
    viewAt maxDepth depth (ofText content) = .ofText content := by
  rw [ofText, viewAt, if_neg shown, Json.ofText]

theorem hasKey_viewAt_ofFieldList (type : String) {fields : List (String × Artifact)}
    (apart : ∀ field ∈ fields, field.1 ≠ "_truncated") :
    Json.HasKey truncationKey (viewAt maxDepth depth (ofFieldList type fields)) ↔
      maxDepth < depth ∨ ∃ field ∈ fields, Json.HasKey truncationKey (viewAt maxDepth (depth + 1) field.2) := by
  by_cases deep : maxDepth < depth
  · rw [viewAt_deep deep]
    exact iff_of_true hasKey_truncated (Or.inl deep)
  · have typeApart : typeKey ≠ truncationKey := by decide
    have typePlain : ¬ Json.HasKey truncationKey (.ofText type.toList) := by rintro ⟨⟩
    rw [viewAt_ofFieldList deep, Json.hasKey_obj]
    simp only [List.mem_cons, List.mem_map, exists_eq_or_imp, typeApart, typePlain, deep, false_or, or_self]
    constructor
    · rintro ⟨_, ⟨field, member, rfl⟩, sameKey | inside⟩
      · exact absurd sameKey (units_ne_truncationKey (apart field member))
      · exact ⟨field, member, inside⟩
    · rintro ⟨field, member, inside⟩
      exact ⟨_, ⟨field, member, rfl⟩, Or.inr inside⟩

theorem hasKey_viewAt_textRecord (type : String) {name : String} (apart : name ≠ "_truncated") (content : Text) :
    Json.HasKey truncationKey (viewAt maxDepth depth (ofFieldList type [(name, ofText content)])) ↔
      maxDepth < depth + 1 := by
  rw [hasKey_viewAt_ofFieldList type (List.forall_mem_singleton.mpr apart)]
  simp only [List.mem_singleton, exists_eq_left, hasKey_viewAt_text]
  omega

theorem viewAt_textRecord (shown : ¬ maxDepth < depth + 1) (type name : String) (content : Text) :
    viewAt maxDepth depth (ofFieldList type [(name, ofText content)]) =
      .obj [(typeKey, .ofText type.toList), (Text.units name.toList, .ofText content)] := by
  have inside : ¬ maxDepth < (depth + 1 : Nat) := by omega
  rw [viewAt_ofFieldList (by omega), List.map_singleton]
  exact congrArg (fun shownText => Json.obj [_, (_, shownText)]) (viewAt_ofText inside content)

end Artifact

namespace Expr

variable {maxDepth : Int} {depth : Nat}

theorem exists_operandDepth (tree : Expr) : ∃ under, under ∈ tree.operandDepths := by
  induction tree with
  | leaf => exact ⟨0, List.mem_cons_self⟩
  | binary operator left right ihl _ =>
    obtain ⟨under, member⟩ := ihl
    exact ⟨under + 1, List.mem_map.mpr ⟨under, List.mem_append_left _ member, rfl⟩⟩

theorem exists_operandDepth_binary {operator : TokenKind} {left right : Expr} {holds : Nat → Prop} :
    (∃ under ∈ (binary operator left right).operandDepths, holds under) ↔
      (∃ under ∈ left.operandDepths, holds (under + 1)) ∨ ∃ under ∈ right.operandDepths, holds (under + 1) := by
  constructor
  · rintro ⟨_, member, found⟩
    obtain ⟨under, inside, rfl⟩ := List.mem_map.mp member
    rcases List.mem_append.mp inside with inLeft | inRight
    · exact Or.inl ⟨under, inLeft, found⟩
    · exact Or.inr ⟨under, inRight, found⟩
  · rintro (⟨under, inLeft, found⟩ | ⟨under, inRight, found⟩)
    · exact ⟨_, List.mem_map.mpr ⟨under, List.mem_append_left _ inLeft, rfl⟩, found⟩
    · exact ⟨_, List.mem_map.mpr ⟨under, List.mem_append_right _ inRight, rfl⟩, found⟩

theorem hasKey_viewAt_binary (operator : TokenKind) (left right : Expr) :
    Json.HasKey truncationKey (viewAt maxDepth depth (ofExpr (binary operator left right))) ↔
      maxDepth < depth + 1 ∨ Json.HasKey truncationKey (viewAt maxDepth (depth + 1) (ofExpr left)) ∨
        Json.HasKey truncationKey (viewAt maxDepth (depth + 1) (ofExpr right)) := by
  rw [ofExpr, hasKey_viewAt_ofFieldList "BinaryOp" (by simp)]
  simp [hasKey_viewAt_constant]
  omega

/-- The view of a tree holds the marker exactly if the text of an operand lies too deep. -/
theorem hasKey_viewAt_iff {tree : Expr} (known : tree.IsKnown) :
    Json.HasKey truncationKey (viewAt maxDepth depth (ofExpr tree)) ↔
      ∃ under ∈ tree.operandDepths, maxDepth < depth + under + 1 := by
  induction tree generalizing depth with
  | leaf operand =>
    cases operand with
    | literal | reference =>
      rw [ofExpr, ofOperand, hasKey_viewAt_textRecord _ (by decide)]
      simp [operandDepths]
    | unsupported => exact absurd rfl known
  | binary operator left right ihl ihr =>
    rw [hasKey_viewAt_binary, ihl known.1, ihr known.2, exists_operandDepth_binary]
    constructor
    · rintro (tooDeep | ⟨under, member, tooDeep⟩ | ⟨under, member, tooDeep⟩)
      -- The operator's name lies above every text in the operation, so any operand does here.
      · obtain ⟨under, member⟩ := left.exists_operandDepth
        exact Or.inl ⟨under, member, by omega⟩
      · exact Or.inl ⟨under, member, by omega⟩
      · exact Or.inr ⟨under, member, by omega⟩
    · rintro (⟨under, member, tooDeep⟩ | ⟨under, member, tooDeep⟩)
      · exact Or.inr (Or.inl ⟨under, member, by omega⟩)
      · exact Or.inr (Or.inr ⟨under, member, by omega⟩)

/-! ## Reading views -/

/-- A view of a tree without the marker is read back as the tree. -/
theorem ofView?_viewAt {tree : Expr} (known : tree.IsKnown)
    (complete : ¬ Json.HasKey truncationKey (viewAt maxDepth depth (ofExpr tree))) :
    ofView? (viewAt maxDepth depth (ofExpr tree)) = some tree := by
  induction tree generalizing depth with
  | leaf operand =>
    cases operand with
    | literal digits =>
      rw [ofExpr, ofOperand, hasKey_viewAt_textRecord _ (by decide)] at complete
      rw [ofExpr, ofOperand, viewAt_textRecord complete, Json.ofText, Json.ofText, ofView?, if_pos rfl, Text.ofUnits?_units,
        Option.map_some]
    | reference name =>
      rw [ofExpr, ofOperand, hasKey_viewAt_textRecord _ (by decide)] at complete
      rw [ofExpr, ofOperand, viewAt_textRecord complete, Json.ofText, Json.ofText, ofView?, if_neg (by decide), if_pos rfl,
        Text.ofUnits?_units, Option.map_some]
    | unsupported => exact absurd rfl known
  | binary operator left right ihl ihr =>
    rw [hasKey_viewAt_binary, not_or, not_or] at complete
    obtain ⟨shown, completeLeft, completeRight⟩ := complete
    rw [ofExpr, viewAt_ofFieldList (by omega)]
    simp [ofView?, viewAt, shown, Json.ofText, Text.ofUnits?_units, TokenKind.ofName?_name, ihl known.1 completeLeft,
      ihr known.2 completeRight]

/-- Applies operations to a left operand, one after the other. -/
def applySteps (left : Expr) (steps : List Step) : Expr :=
  steps.foldl (fun tree step => binary step.operator tree step.right) left

end Expr

namespace Statement

variable {statement : Statement}

theorem hasKey_view_iff (known : statement.IsKnown) :
    Json.HasKey truncationKey (view defaultDepth (ofStatement statement)) ↔ ∃ under ∈ statement.operandDepths, 63 ≤ under := by
  rw [view]
  cases statement with
  | comment content =>
    rw [ofStatement, hasKey_viewAt_textRecord "Comment" (by decide)]
    simp [operandDepths, defaultDepth]
  | assignment name valueText column =>
    rw [ofStatement, hasKey_viewAt_ofFieldList "Assignment" (by simp)]
    simp [hasKey_viewAt_text, hasKey_viewAt_integer, operandDepths, defaultDepth]
  | expression tree =>
    have tooDeep : ∀ under : Nat, defaultDepth < (0 + 1 : Nat) + under + 1 ↔ 63 ≤ under := by
      intro under
      unfold defaultDepth
      omega
    rw [ofStatement, hasKey_viewAt_ofFieldList "ExpressionStatement" (by simp)]
    simp only [List.mem_singleton, exists_eq_left, Expr.hasKey_viewAt_iff known, tooDeep, operandDepths]
    simp [defaultDepth]
  | unsupported => exact known.elim

theorem ofView?_expression {json : Json} {tree : Expr} (read : Expr.ofView? json = some tree)
    (type : Text.Units × Json) (key : Text.Units) : ofView? (.obj [type, (key, json)]) = some (expression tree) := by
  cases json with
  | str => simp [Expr.ofView?] at read
  | null | bool | int | real | arr | obj => simp [ofView?, read]

theorem ofView?_view (known : statement.IsKnown)
    (complete : ¬ Json.HasKey truncationKey (view defaultDepth (ofStatement statement))) :
    ofView? (view defaultDepth (ofStatement statement)) = some statement := by
  have top : ¬ defaultDepth < (0 : Nat) := by decide
  have below : ¬ defaultDepth < (0 + 1 : Nat) := by decide
  rw [view] at complete ⊢
  cases statement with
  | comment content =>
    rw [ofStatement, viewAt_textRecord (by decide), Json.ofText, Json.ofText, ofView?, Text.ofUnits?_units, Option.map_some]
  | assignment name valueText column =>
    rw [ofStatement, viewAt_ofFieldList top]
    simp only [List.map_cons, List.map_nil, viewAt_ofText below, viewAt, below, if_false, Json.ofText]
    simp [ofView?, Text.ofUnits?_units]
  | expression tree =>
    rw [ofStatement, hasKey_viewAt_ofFieldList "ExpressionStatement" (by simp)] at complete
    simp only [List.mem_singleton, exists_eq_left, top, false_or] at complete
    have read := Expr.ofView?_viewAt known complete
    rw [ofStatement, viewAt_ofFieldList top]
    exact ofView?_expression read _ _
  | unsupported => exact known.elim

/-- The view of a statement holds the marker exactly if some operand lies under 63 operations or
    more. A view without it is read back as the statement, so that no other statement has it. -/
theorem view_settles (known : statement.IsKnown) :
    (Json.HasKey truncationKey (view defaultDepth (ofStatement statement)) ↔
      ∃ under ∈ statement.operandDepths, 63 ≤ under) ∧
    (¬ Json.HasKey truncationKey (view defaultDepth (ofStatement statement)) →
      ofView? (view defaultDepth (ofStatement statement)) = some statement ∧
      ∀ other : Statement, other.IsKnown →
        view defaultDepth (ofStatement other) = view defaultDepth (ofStatement statement) → other = statement) := by
  refine ⟨hasKey_view_iff known, fun complete => ⟨ofView?_view known complete, fun other otherKnown same => ?_⟩⟩
  have read := ofView?_view known complete
  rw [← same] at complete read
  exact Option.some.inj ((ofView?_view otherKnown complete).symm.trans read)

def sumOfOnes (operations : Nat) : Statement :=
  expression (Expr.applySteps (.leaf (.literal ['1'])) (List.replicate operations ⟨.plus, .leaf (.literal ['1'])⟩))

theorem view_settles_sums :
    (sumOfOnes 62).IsKnown ∧ (sumOfOnes 63).IsKnown ∧
    ¬ Json.HasKey truncationKey (view defaultDepth (ofStatement (sumOfOnes 62))) ∧
    ofView? (view defaultDepth (ofStatement (sumOfOnes 62))) = some (sumOfOnes 62) ∧
    Json.HasKey truncationKey (view defaultDepth (ofStatement (sumOfOnes 63))) := by
  have known : (sumOfOnes 62).IsKnown := by decide +kernel
  have knownLonger : (sumOfOnes 63).IsKnown := by decide +kernel
  have complete : ¬ Json.HasKey truncationKey (view defaultDepth (ofStatement (sumOfOnes 62))) := by
    rw [(view_settles known).1]
    decide +kernel
  exact ⟨known, knownLonger, complete, ((view_settles known).2 complete).1, (view_settles knownLonger).1.mpr (by decide +kernel)⟩

end Statement
end LineCalc
