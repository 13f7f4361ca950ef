import LineCalc.Proofs.Substitution
import LineCalc.Proofs.Assignment
import LineCalc.Proofs.LineEnds
import LineCalc.Proofs.Legibility
import Mathlib.Logic.Equiv.Basic

/-!
Runs with other names. A line with its names replaced is read as the statement with these names,
and what becomes of it in the renamed environment is what becomes of the old line, renamed
(`Yields.rename`).
-/
namespace LineCalc
open Scan Statement

/-- No two names get the same one. -/
structure Renaming where
  image : Text → Text
  isName : ∀ {name : Text}, IsName name → IsName (image name)
  injective : ∀ {name other : Text}, IsName name → IsName other → image name = image other → name = other

/-- The renaming that exchanges two names. -/
def Renaming.swap {first second : Text} (isFirst : IsName first) (isSecond : IsName second) : Renaming where
  image := Equiv.swap first second
  isName := by
    intro name written
    rw [Equiv.swap_apply_def]
    split
    · exact isSecond
    · split <;> assumption
  injective _ _ same := (Equiv.swap first second).injective same

/-- An error with another name in the place of the one that it is about. -/
def LineError.rename (image : Text → Text) : LineError → LineError
  | redefinition name existing => redefinition (image name) existing
  | undefinedVariable name => undefinedVariable (image name)
  | error => error

def Failure.rename (image : Text → Text) : Failure → Failure
  | line error => line (error.rename image)
  | failure => failure

/-- The bindings with other names, in the same order. -/
def Environment.rename (image : Text → Text) (environment : Environment) : Environment :=
  ⟨environment.bindings.map fun (name, value) => (image name, value)⟩

def Outcome.rename (image : Text → Text) : Outcome → Outcome
  | bound name value => bound (image name) value
  | failed error => failed (error.rename image)
  | outcome => outcome

/-- A redefined name and an undefined one are told by their new names; of any other error nothing
    but the line changes. -/
inductive Event.Renamed (image : Text → Text) : Event → Event → Prop
  | valued {number : Int} {line : Text} {value : Int} :
      Renamed image (.valued ⟨number, line, value⟩) (.valued ⟨number, respell image line, value⟩)
  | redefinition {number : Int} {line name : Text} {existing : Int} :
      Renamed image (.ofError number line (.redefinition name existing))
        (.ofError number (respell image line) (.redefinition (image name) existing))
  | undefinedVariable {number : Int} {line name : Text} :
      Renamed image (.ofError number line (.undefinedVariable name))
        (.ofError number (respell image line) (.undefinedVariable (image name)))
  | failed {number : Int} {line : Text} {error : LineError} :
      error.Nameless → Renamed image (.ofError number line error) (.ofError number (respell image line) error)

theorem LineError.Nameless.rename {error : LineError} (nameless : error.Nameless) (image : Text → Text) :
    error.rename image = error := by
  cases error with
  | redefinition => exact absurd rfl nameless.1
  | undefinedVariable => exact absurd rfl nameless.2
  | _ => rfl

/-! ## Lines -/

namespace Statement

theorem respell_of_comment {line text : Text} (accepted : ofLine line = .ok (.comment text)) (spell : Text → Text) :
    respell spell line = line := by
  rw [respell, if_pos (ofLine_eq_comment_iff.mp accepted).1]

theorem respell_assign {before name between : Text} (isGap : IsGap before) (isName : IsName name)
    (isInner : IsGap between) (behind : Text) (spell : Text → Text) :
    respell spell (before ++ name ++ (between ++ [':', '='] ++ behind)) =
      before ++ spell name ++ (between ++ [':', '='] ++ behind) := by
  have first := splice_token (Token.respelled spell) 0 .ident before name (between ++ [':', '='] ++ behind)
    [⟨.assign, [':', '='], (before.length + name.length + between.length : Nat) + 1⟩]
  have second := splice_token (Token.respelled spell) (before.length + name.length) .assign between [':', '='] behind []
  rw [Nat.zero_add] at first
  have all : respell spell (before ++ name ++ (between ++ [':', '='] ++ behind)) =
      splice (Token.respelled spell) 0 [⟨.ident, name, (before.length : Nat) + 1⟩,
        ⟨.assign, [':', '='], (before.length + name.length + between.length : Nat) + 1⟩]
        (before ++ name ++ (between ++ [':', '='] ++ behind)) := by
    rw [respell, isComment_assign isGap isName, if_neg Bool.false_ne_true, ofStatement_assign isGap isName isInner]
    exact splice_atEnd _ 0 [_, _] _ rfl
  rw [all, first, second]
  simp [Token.respelled, splice]

end Statement

/-! ## Line ends -/

theorem TokenKind.IsLexeme.printing {kind : TokenKind} {text : Text} (lexeme : kind.IsLexeme text) :
    ∀ c ∈ text, isPrinting c = true := by
  intro c member
  cases lexeme with
  | name written => exact isPrinting_of_isNameCharacter (written.characters c member)
  | number written => exact isPrinting_of_isDigit (written.2 c member)
  | symbol listed =>
    have printing : ∀ entry ∈ symbols, entry.1.all isPrinting = true := by decide
    exact List.all_eq_true.mp (printing _ listed) c member

theorem Lines.unbroken_of_forall {text : Text} (inside : ∀ c ∈ text, c = '\t' ∨ isPrinting c = true) :
    Lines.Unbroken text := by
  constructor
  · intro member
    exact absurd (inside '\r' member) (by decide)
  · intro member
    exact absurd (inside '\n' member) (by decide)

theorem Statement.unbroken_of_expression {line : Text} {tree : Expr} (accepted : ofLine line = .ok (.expression tree)) :
    Lines.Unbroken line := by
  obtain ⟨reads, -⟩ := tokens_of_expression accepted
  refine Lines.unbroken_of_forall (reads.spells.characters (Or.inr (by decide)) (Or.inl rfl) ?_)
  intro lexeme member c inside
  obtain ⟨token, scanned, rfl⟩ := List.mem_map.mp member
  exact Or.inr ((reads.isLexeme token scanned).printing c inside)

namespace Renaming

variable (fresh : Renaming) {line : Text}

theorem ofLine_expression {tree : Expr} (accepted : ofLine line = .ok (.expression tree)) :
    ofLine (respell fresh.image line) = .ok (.expression (tree.substitute fun name => .reference (fresh.image name))) :=
  have proper : ∀ name, IsName name → (Operand.reference (fresh.image name)).IsProper :=
    fun _ isName => fresh.isName isName
  ofLine_respell accepted proper fun _ _ => rfl

theorem ofLine_assignment {name valueText : Text} {column : Int}
    (accepted : ofLine line = .ok (.assignment name valueText column)) :
    IsName name ∧ ∃ moved, ofLine (respell fresh.image line) = .ok (.assignment (fresh.image name) valueText moved) := by
  obtain ⟨before, between, behind, rfl, isGap, isName, isInner⟩ := exists_assign accepted
  rw [ofLine_assign isGap isName isInner] at accepted
  rw [respell_assign isGap isName isInner, ofLine_assign isGap (fresh.isName isName) isInner]
  dsimp only at accepted ⊢
  split at accepted
  · cases accepted
  next given =>
    cases accepted
    rw [if_neg given]
    exact ⟨isName, _, rfl⟩

theorem respell_unbroken {statement : Statement} (accepted : ofLine line = .ok statement)
    (unbroken : Lines.Unbroken line) :
    Lines.Unbroken (respell fresh.image line) ∧ (respell fresh.image line = [] → line = []) := by
  rcases ofLine_outcome line with comment | ⟨name, valueText, column, assignment⟩ | ⟨tree, expression⟩ |
    ⟨error, rejected, -⟩
  · rw [respell_of_comment comment]
    exact ⟨unbroken, id⟩
  · obtain ⟨before, between, behind, rfl, isGap, isName, isInner⟩ := exists_assign assignment
    have written := (fresh.isName isName).characters
    have image : Lines.Unbroken (fresh.image name) :=
      Lines.unbroken_of_forall fun c member => Or.inr (isPrinting_of_isNameCharacter (written c member))
    rw [respell_assign isGap isName isInner]
    refine ⟨?_, by simp⟩
    simp only [Lines.Unbroken, List.mem_append, not_or] at unbroken image ⊢
    exact ⟨⟨⟨unbroken.1.1.1, image.1⟩, unbroken.1.2⟩, ⟨unbroken.2.1.1, image.2⟩, unbroken.2.2⟩
  · have again := fresh.ofLine_expression expression
    refine ⟨unbroken_of_expression again, ?_⟩
    -- An empty line would be a comment.
    have blank : ofLine [] = .ok (.comment []) := ofLine_eq_comment_iff.mpr ⟨rfl, rfl⟩
    intro empty
    rw [empty] at again
    cases blank.symm.trans again
  · cases accepted.symm.trans rejected

/-! ## Outcomes -/

theorem lookup?_rename {environment : Environment} (named : ∀ name ∈ environment.names, IsName name) {name : Text}
    (isName : IsName name) : (environment.rename fresh.image).lookup? (fresh.image name) = environment.lookup? name := by
  obtain ⟨bindings⟩ := environment
  induction bindings with
  | nil => rfl
  | cons binding rest ih =>
    obtain ⟨other, value⟩ := binding
    have behind := ih fun later member => named later (List.mem_cons_of_mem other member)
    have otherName : IsName other := named other List.mem_cons_self
    have same : (fresh.image name == fresh.image other) = (name == other) := by
      rw [Bool.eq_iff_iff, beq_iff_eq, beq_iff_eq]
      exact ⟨fresh.injective isName otherName, congrArg fresh.image⟩
    simp only [Environment.lookup?, Environment.rename, List.map_cons, List.lookup_cons, same] at behind ⊢
    rw [behind]

theorem evaluate_rename {environment : Environment} (named : ∀ name ∈ environment.names, IsName name) {tree : Expr}
    (isNames : ∀ name ∈ tree.names, IsName name) :
    (tree.substitute fun name => .reference (fresh.image name)).evaluate (environment.rename fresh.image) =
      (tree.evaluate environment).mapError (Failure.rename fresh.image) := by
  refine Expr.evaluate_substitute ?_ ?_
  · intro failure nameless
    cases failure with
    | line error => exact congrArg Failure.line (nameless.rename fresh.image)
    | _ => rfl
  · intro name member
    simp only [Operand.evaluate, Environment.lookup, lookup?_rename fresh named (isNames name member)]
    cases environment.lookup? name <;> rfl

end Renaming

namespace Yields

variable (fresh : Renaming) {environment : Environment} {line : Text} {outcome : Outcome} {statement : Statement}

omit fresh in
theorem isName (yields : Yields environment line outcome) : ∀ name ∈ outcome.bindings.map Prod.fst, IsName name := by
  intro name member
  cases yields with
  | binding assignment =>
    obtain ⟨_, _, _, -, -, written, -⟩ := exists_assign assignment
    rw [List.mem_singleton.mp member]
    exact written
  | comment | rejected | noNumeral | redefinition | value | noValue => cases member

/-- With other names the same becomes of a line, under these names. -/
theorem rename (yields : Yields environment line outcome) (named : ∀ name ∈ environment.names, IsName name)
    (accepted : ofLine line = .ok statement) :
    Yields (environment.rename fresh.image) (respell fresh.image line) (outcome.rename fresh.image) := by
  cases yields with
  | comment comment =>
    rw [respell_of_comment comment]
    exact .comment comment
  | rejected rejected => cases accepted.symm.trans rejected
  | noNumeral assignment numeral =>
    obtain ⟨-, _, again⟩ := fresh.ofLine_assignment assignment
    exact .noNumeral again numeral
  | redefinition assignment numeral bound =>
    obtain ⟨isName, _, again⟩ := fresh.ofLine_assignment assignment
    rw [← fresh.lookup?_rename named isName] at bound
    exact .redefinition again numeral bound
  | binding assignment numeral bound =>
    obtain ⟨isName, _, again⟩ := fresh.ofLine_assignment assignment
    rw [← fresh.lookup?_rename named isName] at bound
    exact .binding again numeral bound
  | value expression evaluated =>
    have same := fresh.evaluate_rename named (canonical_of_expression expression).1.isName
    rw [evaluated] at same
    exact .value (fresh.ofLine_expression expression) same
  | noValue expression evaluated =>
    have same := fresh.evaluate_rename named (canonical_of_expression expression).1.isName
    rw [evaluated] at same
    exact .noValue (fresh.ofLine_expression expression) same

theorem renamed (yields : Yields environment line outcome) (accepted : ofLine line = .ok statement) (number : Nat) :
    List.Forall₂ (Event.Renamed fresh.image) (outcome.events number line)
      ((outcome.rename fresh.image).events number (respell fresh.image line)) := by
  cases yields with
  | comment | binding => exact .nil
  | rejected rejected => cases accepted.symm.trans rejected
  | noNumeral => exact .cons (.failed (.of_kind .numberFormat rfl (by decide))) .nil
  | redefinition => exact .cons .redefinition .nil
  | value => exact .cons .valued .nil
  | noValue expression evaluated =>
    cases isOfValue_of_expression expression evaluated with
    | undefinedVariable => exact .cons .undefinedVariable .nil
    | divisionByZero | moduloByZero => exact .cons (.failed (.of_kind .arithmetic rfl (by decide))) .nil

end Yields

/-! ## Runs -/

theorem Account.renamed (fresh : Renaming) {lines : List Text}
    (accepted : ∀ line ∈ lines, ∃ statement, ofLine line = .ok statement) :
    (∀ name ∈ (bindings lines).map Prod.fst, IsName name) ∧
      Environment.mk (bindings (lines.map (respell fresh.image))) = Environment.rename fresh.image ⟨bindings lines⟩ ∧
      List.Forall₂ (Event.Renamed fresh.image) (events lines) (events (lines.map (respell fresh.image))) := by
  induction lines using List.reverseRecOn with
  | nil => exact ⟨List.forall_mem_nil _, rfl, .nil⟩
  | append_singleton lines line ih =>
    obtain ⟨named, bound, told⟩ := ih fun other member => accepted other (List.mem_append_left _ member)
    obtain ⟨statement, read⟩ := accepted line (by simp)
    obtain ⟨outcome, yields⟩ := exists_yields ⟨bindings lines⟩ line
    have again := yields.rename fresh named read
    have tells := yields.renamed fresh read (lines.length + 1)
    rw [← bound] at again
    obtain ⟨binds, events⟩ := yields_account yields
    obtain ⟨bindsAgain, eventsAgain⟩ := yields_account again
    rw [List.length_map] at eventsAgain
    rw [List.map_append, List.map_singleton, Account.bindings, Account.bindings, Account.events, Account.events,
      collect_append_singleton, collect_append_singleton, collect_append_singleton, collect_append_singleton, ← binds,
      ← bindsAgain, ← events, ← eventsAgain]
    refine ⟨?_, ?_, List.rel_append told tells⟩
    · intro name member
      rw [List.map_append] at member
      rcases List.mem_append.mp member with before | added
      · exact named name before
      · exact yields.isName name added
    · have front := congrArg Environment.bindings bound
      have back : (outcome.rename fresh.image).bindings =
          outcome.bindings.map fun (name, value) => (fresh.image name, value) := by
        cases outcome <;> rfl
      rw [Environment.rename, List.map_append, back]
      exact congrArg (fun before => Environment.mk (before ++ _)) front

/-- Names carry no meaning. Where every line is a statement, a run over the source with other
    names tells the same of each line, with these names, and binds them to the same values in
    the same order. -/
theorem Session.run_renamed (fresh : Renaming) (verbose : Bool) {source : Text}
    (accepted : ∀ line ∈ Lines.ofText source, ∃ statement, ofLine line = .ok statement) :
    ∃ first second, (start verbose source).run = .ok first ∧
      (start verbose (Lines.replace (respell fresh.image) source)).run = .ok second ∧
      second.lines = first.lines.map (respell fresh.image) ∧
      List.Forall₂ (Event.Renamed fresh.image) first.report.events second.report.events ∧
      second.environment = first.environment.rename fresh.image := by
  have lines : Lines.ofText (Lines.replace (respell fresh.image) source) =
      (Lines.ofText source).map (respell fresh.image) := by
    refine Lines.ofText_replace fun line member => ?_
    obtain ⟨statement, read⟩ := accepted line member
    exact fresh.respell_unbroken read (Lines.free_of_ends member)
  obtain ⟨-, bound, told⟩ := Account.renamed fresh accepted
  obtain ⟨first, ran, firstLines, firstEnvironment, firstReport⟩ := Account.run_accounts verbose source
  obtain ⟨second, ranAgain, secondLines, secondEnvironment, secondReport⟩ :=
    Account.run_accounts verbose (Lines.replace (respell fresh.image) source)
  rw [lines] at secondLines secondEnvironment secondReport
  refine ⟨first, second, ran, ranAgain, ?_, ?_, ?_⟩
  · rw [secondLines, firstLines]
  · rw [firstReport, secondReport]
    exact told
  · rw [firstEnvironment, secondEnvironment]
    exact bound

theorem Session.run_renamed_swap :
    (∀ line ∈ Lines.ofText "x := 7\r\n x*x\ry2 - x\n#x\n x:=8\nx%0\nx := x".toList,
      ∃ statement, ofLine line = .ok statement) ∧
    Lines.replace (respell (Equiv.swap ['x'] ['y', '2'])) "x := 7\r\n x*x\ry2 - x\n#x\n x:=8\nx%0\nx := x".toList =
      "y2 := 7\r\n y2*y2\rx - y2\n#x\n y2:=8\ny2%0\ny2 := x".toList ∧
    ∃ first second, (start false "x := 7\r\n x*x\ry2 - x\n#x\n x:=8\nx%0\nx := x".toList).run = .ok first ∧
      (start false "y2 := 7\r\n y2*y2\rx - y2\n#x\n y2:=8\ny2%0\ny2 := x".toList).run = .ok second ∧
      List.Forall₂ (Event.Renamed (Equiv.swap ['x'] ['y', '2'])) first.report.events second.report.events ∧
      second.environment = first.environment.rename (Equiv.swap ['x'] ['y', '2']) := by
  have isShort : IsName ['x'] := ⟨rfl, List.forall_mem_nil _⟩
  have isLong : IsName ['y', '2'] := ⟨rfl, List.forall_mem_singleton.mpr rfl⟩
  have read : ∀ line ∈ Lines.ofText "x := 7\r\n x*x\ry2 - x\n#x\n x:=8\nx%0\nx := x".toList,
      (ofLine line).isOk = true := by decide +kernel
  have accepted : ∀ line ∈ Lines.ofText "x := 7\r\n x*x\ry2 - x\n#x\n x:=8\nx%0\nx := x".toList,
      ∃ statement, ofLine line = .ok statement := by
    intro line member
    have isOk := read line member
    cases found : ofLine line with
    | ok statement => exact ⟨statement, rfl⟩
    | error failure =>
      rw [found] at isOk
      cases isOk
  have replaced : Lines.replace (respell (Equiv.swap ['x'] ['y', '2']))
      "x := 7\r\n x*x\ry2 - x\n#x\n x:=8\nx%0\nx := x".toList =
      "y2 := 7\r\n y2*y2\rx - y2\n#x\n y2:=8\ny2%0\ny2 := x".toList := by decide +kernel
  obtain ⟨first, second, ran, ranAgain, -, told, bound⟩ := run_renamed (.swap isShort isLong) false accepted
  rw [Renaming.swap, replaced] at ranAgain
  exact ⟨accepted, replaced, first, second, ran, ranAgain, told, bound⟩

end LineCalc
