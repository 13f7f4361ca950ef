import LineCalc.Environment
import LineCalc.Proofs.Numerals
import Mathlib.Data.List.Induction

/-!
Environments with any history. An environment is asked to bind a name or for the value of one, in
any order and any number of times (`Environment.useAll`). Behind every history it holds the first
definitions of the names, each once and in their order (`Environment.Holds`).
-/
namespace LineCalc.Environment
open Numeral (decimal)

/-- What an environment is used for: to bind a name to a value, or to look a name up. -/
inductive Use
  | define (name : Text) (value : Int)
  | lookup (name : Text)
  deriving DecidableEq

/-- A name that is looked up is answered with its value, a name that is bound with nothing. -/
def use (environment : Environment) : Use → Environment × Except LineError (Option Int)
  | .define name value =>
    match environment.define name value with
    | .error error => (environment, .error error)
    | .ok after => (after, .ok none)
  | .lookup name => (environment, (environment.lookup name).map some)

/-- The environment behind uses, and the answers to them in order. -/
def useAll (environment : Environment) : List Use → Environment × List (Except LineError (Option Int))
  | [] => (environment, [])
  | use :: rest =>
    let (after, answer) := environment.use use
    let (last, answers) := after.useAll rest
    (last, answer :: answers)

/-- One of the uses defines the name. -/
def Defined (uses : List Use) (name : Text) : Prop := ∃ value, .define name value ∈ uses

/-- The first of the uses that define the name gives it the value. -/
def FirstDefined (uses : List Use) (name : Text) (value : Int) : Prop :=
  ∃ before after, uses = before ++ .define name value :: after ∧ ¬ Defined before name

/-- A name is defined before any use defines the other one. -/
def DefinedBefore (uses : List Use) (name other : Text) : Prop :=
  ∃ before value after, uses = before ++ .define name value :: after ∧ ¬ Defined before other

/-- A definition is refused with the first value of the name, and accepted if there is none; a name
    that is looked up has its first value. -/
def AnswersTo (earlier : List Use) : Use → Except LineError (Option Int) → Prop
  | .define name _, answer =>
    (∀ first, answer = .error (.redefinition name first) ↔ FirstDefined earlier name first) ∧
      (answer = .ok none ↔ ¬ Defined earlier name)
  | .lookup name, answer =>
    (∀ first, answer = .ok (some first) ↔ FirstDefined earlier name first) ∧
      (answer = .error (.undefinedVariable name) ↔ ¬ Defined earlier name)

/-- Every view shows the names that the uses define, each once and in the order of their first
    definitions, and the snapshot shows the first values. -/
structure Lists (uses : List Use) (environment : Environment) : Prop where
  distinct : environment.names.Nodup
  defined : ∀ name, name ∈ environment.names ↔ Defined uses name
  ordered : environment.names.Pairwise (DefinedBefore uses)
  contains : ∀ name, environment.contains name = true ↔ Defined uses name
  size : environment.size = environment.names.length
  names : environment.snapshot.map Prod.fst = environment.names
  values : ∀ name numeral, (name, numeral) ∈ environment.snapshot ↔
    ∃ value, FirstDefined uses name value ∧ numeral = decimal value

theorem use_define_of_bound {environment : Environment} {name : Text} {existing : Int}
    (bound : environment.lookup? name = some existing) (value : Int) :
    environment.use (.define name value) = (environment, .error (.redefinition name existing)) := by
  simp only [use, define_of_bound bound]

theorem use_define_of_unbound {environment : Environment} {name : Text} (unbound : environment.lookup? name = none)
    (value : Int) :
    environment.use (.define name value) = (⟨environment.bindings ++ [(name, value)]⟩, .ok none) := by
  simp only [use, define_of_unbound unbound]

/-! ## First definitions -/

theorem defined_append_singleton_iff {uses : List Use} {use : Use} {name : Text} :
    Defined (uses ++ [use]) name ↔ Defined uses name ∨ ∃ value, use = .define name value := by
  simp only [Defined, List.mem_append, List.mem_singleton, exists_or, eq_comm]

/-- One more use is the first to define a name if no earlier one defines it. -/
theorem firstDefined_append_singleton_iff {uses : List Use} {use : Use} {name : Text} {value : Int} :
    FirstDefined (uses ++ [use]) name value ↔
      FirstDefined uses name value ∨ use = .define name value ∧ ¬ Defined uses name := by
  constructor
  · rintro ⟨before, after, cut, first⟩
    rcases List.eq_nil_or_concat after with rfl | ⟨rest, last, rfl⟩
    · obtain ⟨rfl, same⟩ := List.append_inj' cut rfl
      exact .inr ⟨List.singleton_inj.mp same, first⟩
    · rw [List.concat_eq_append, ← List.cons_append, ← List.append_assoc] at cut
      exact .inl ⟨before, rest, (List.append_inj' cut rfl).1, first⟩
  · rintro (⟨before, after, rfl, first⟩ | ⟨rfl, unknown⟩)
    · exact ⟨before, after ++ [use], by simp, first⟩
    · exact ⟨uses, [], rfl, unknown⟩

theorem defined_iff_firstDefined {uses : List Use} {name : Text} :
    Defined uses name ↔ ∃ value, FirstDefined uses name value := by
  constructor
  · induction uses using List.reverseRecOn with
    | nil => simp [Defined]
    | append_singleton uses use ih =>
      intro defined
      by_cases known : Defined uses name
      · obtain ⟨value, first⟩ := ih known
        exact ⟨value, firstDefined_append_singleton_iff.mpr (.inl first)⟩
      · obtain ⟨value, rfl⟩ := (defined_append_singleton_iff.mp defined).resolve_left known
        exact ⟨value, firstDefined_append_singleton_iff.mpr (.inr ⟨rfl, known⟩)⟩
  · rintro ⟨value, before, after, rfl, -⟩
    exact ⟨value, by simp⟩

theorem DefinedBefore.append {uses : List Use} {name other : Text} (precedes : DefinedBefore uses name other)
    (more : List Use) : DefinedBefore (uses ++ more) name other := by
  obtain ⟨before, value, after, rfl, unknown⟩ := precedes
  exact ⟨before, value, after ++ more, by simp, unknown⟩

theorem Defined.before {uses : List Use} {name other : Text} (defined : Defined uses name)
    (unknown : ¬ Defined uses other) (more : List Use) : DefinedBefore (uses ++ more) name other := by
  obtain ⟨value, member⟩ := defined
  obtain ⟨before, after, rfl⟩ := List.append_of_mem member
  refine ⟨before, value, after ++ more, by simp, ?_⟩
  rintro ⟨value', earlier⟩
  exact unknown ⟨value', List.mem_append_left _ earlier⟩

/-! ## What an environment holds -/

/-- The bindings are the first definitions of the uses, in their order. -/
structure Holds (uses : List Use) (environment : Environment) : Prop where
  first : ∀ name value, (name, value) ∈ environment.bindings ↔ FirstDefined uses name value
  distinct : environment.names.Nodup
  ordered : environment.names.Pairwise (DefinedBefore uses)

theorem holds_empty : Holds [] empty where
  first := by simp [empty, FirstDefined]
  distinct := List.nodup_nil
  ordered := List.Pairwise.nil

namespace Holds

variable {uses : List Use} {environment : Environment} (holds : Holds uses environment)
include holds

theorem mem_names_iff {name : Text} : name ∈ environment.names ↔ Defined uses name := by
  rw [defined_iff_firstDefined, names, List.mem_map]
  constructor
  · rintro ⟨⟨_, value⟩, member, rfl⟩
    exact ⟨value, (holds.first _ value).mp member⟩
  · rintro ⟨value, first⟩
    exact ⟨_, (holds.first name value).mpr first, rfl⟩

theorem lookup?_eq_some_iff {name : Text} {value : Int} :
    environment.lookup? name = some value ↔ FirstDefined uses name value := by
  rw [← holds.first, lookup?]
  constructor
  · intro found
    obtain ⟨before, after, cut, -⟩ := List.lookup_eq_some_iff.mp found
    rw [cut]
    exact List.mem_append_right before List.mem_cons_self
  · intro member
    obtain ⟨before, after, cut⟩ := List.append_of_mem member
    refine List.lookup_eq_some_iff.mpr ⟨before, after, cut, fun binding earlier => ?_⟩
    have distinct := holds.distinct
    rw [names, cut, List.map_append, List.map_cons, List.nodup_append] at distinct
    have differs := distinct.2.2 binding.1 (List.mem_map_of_mem earlier) name List.mem_cons_self
    exact bne_iff_ne.mpr differs.symm

theorem lookup?_eq_none_iff {name : Text} : environment.lookup? name = none ↔ ¬ Defined uses name := by
  rw [defined_iff_firstDefined, Option.eq_none_iff_forall_ne_some]
  simp only [ne_eq, holds.lookup?_eq_some_iff, not_exists]

/-- A use that is no first definition leaves what the environment holds. -/
theorem of_known {use : Use} (known : ∀ name value, use = .define name value → Defined uses name) :
    Holds (uses ++ [use]) environment where
  first name value := by
    rw [holds.first, firstDefined_append_singleton_iff]
    refine ⟨.inl, fun first => first.resolve_right ?_⟩
    rintro ⟨defines, unknown⟩
    exact unknown (known name value defines)
  distinct := holds.distinct
  ordered := holds.ordered.imp fun precedes => precedes.append [use]

/-- A first definition is held behind the others. -/
theorem define {name : Text} (unknown : ¬ Defined uses name) (value : Int) :
    Holds (uses ++ [.define name value]) ⟨environment.bindings ++ [(name, value)]⟩ where
  first other number := by
    rw [firstDefined_append_singleton_iff, ← holds.first, List.mem_append, List.mem_singleton]
    constructor
    · rintro (member | same)
      · exact .inl member
      · cases same
        exact .inr ⟨rfl, unknown⟩
    · rintro (member | ⟨same, -⟩)
      · exact .inl member
      · cases same
        exact .inr rfl
  distinct := by
    have fresh : name ∉ environment.names := mt holds.mem_names_iff.mp unknown
    rw [names, List.map_append]
    refine List.nodup_append.mpr ⟨holds.distinct, List.pairwise_singleton _ _, ?_⟩
    rintro other bound _ same rfl
    obtain rfl : other = name := List.mem_singleton.mp same
    exact fresh bound
  ordered := by
    rw [names, List.map_append]
    refine List.pairwise_append.mpr ⟨holds.ordered.imp fun precedes => precedes.append _, List.pairwise_singleton _ _, ?_⟩
    intro other bound _ same
    obtain rfl := List.mem_singleton.mp same
    exact (holds.mem_names_iff.mp bound).before unknown _

/-! ## One use, and any number of them -/

/-- One more use leads to what the uses with it define. -/
theorem use (next : Use) : Holds (uses ++ [next]) (environment.use next).1 := by
  cases next with
  | lookup name => exact holds.of_known fun _ _ defines => nomatch defines
  | define name value =>
    cases bound : environment.lookup? name with
    | some existing =>
      have known : Defined uses name := defined_iff_firstDefined.mpr ⟨existing, holds.lookup?_eq_some_iff.mp bound⟩
      rw [use_define_of_bound bound]
      refine holds.of_known fun _ _ same => ?_
      cases same
      exact known
    | none =>
      rw [use_define_of_unbound bound]
      exact holds.define (holds.lookup?_eq_none_iff.mp bound) value

/-- The answer to a use is settled by the uses before it. -/
theorem answersTo (next : Use) : AnswersTo uses next (environment.use next).2 := by
  cases next with
  | define name value =>
    cases bound : environment.lookup? name with
    | some existing =>
      rw [use_define_of_bound bound, AnswersTo, ← holds.lookup?_eq_none_iff, bound]
      simp [← holds.lookup?_eq_some_iff, bound]
    | none =>
      rw [use_define_of_unbound bound, AnswersTo, ← holds.lookup?_eq_none_iff, bound]
      simp [← holds.lookup?_eq_some_iff, bound]
  | lookup name =>
    cases bound : environment.lookup? name with
    | some value =>
      have answer : (environment.use (.lookup name)).2 = .ok (some value) := by
        simp only [Environment.use, Environment.lookup, bound]
        rfl
      rw [answer, AnswersTo, ← holds.lookup?_eq_none_iff, bound]
      simp [← holds.lookup?_eq_some_iff, bound]
    | none =>
      have answer : (environment.use (.lookup name)).2 = .error (.undefinedVariable name) := by
        simp only [Environment.use, Environment.lookup, bound]
        rfl
      rw [answer, AnswersTo, ← holds.lookup?_eq_none_iff, bound]
      simp [← holds.lookup?_eq_some_iff, bound]

omit holds in
theorem useAll {earlier : List Use} (holds : Holds earlier environment) (uses : List Use) :
    Holds (earlier ++ uses) (environment.useAll uses).1 := by
  induction uses generalizing earlier environment with
  | nil => exact (List.append_nil earlier).symm ▸ holds
  | cons use rest ih =>
    rw [List.append_cons]
    exact ih (holds.use use)

theorem lists : Lists uses environment where
  distinct := holds.distinct
  defined _ := holds.mem_names_iff
  ordered := holds.ordered
  contains _ := by rw [contains, List.contains_iff_mem, holds.mem_names_iff]
  size := List.length_map _ |>.symm
  names := by simp [snapshot, names, Function.comp_def]
  values name numeral := by
    simp only [snapshot, List.mem_map, Prod.exists, Prod.mk.injEq, holds.first, Numeral.print_eq_decimal]
    constructor
    · rintro ⟨_, value, first, rfl, rfl⟩
      exact ⟨value, first, rfl⟩
    · rintro ⟨value, first, rfl⟩
      exact ⟨name, value, first, rfl, rfl⟩

end Holds

/-- A use that fails leaves the environment as it is. -/
theorem use_of_error {environment : Environment} {use : Use} {error : LineError}
    (failed : (environment.use use).2 = .error error) : (environment.use use).1 = environment := by
  cases use with
  | lookup name => rfl
  | define name value =>
    rw [Environment.use] at failed ⊢
    cases defined : environment.define name value with
    | error error => rfl
    | ok after =>
      rw [defined] at failed
      cases failed

theorem useAll_append (environment : Environment) (first second : List Use) :
    environment.useAll (first ++ second) =
      (((environment.useAll first).1.useAll second).1,
        (environment.useAll first).2 ++ ((environment.useAll first).1.useAll second).2) := by
  induction first generalizing environment with
  | nil => rfl
  | cons use rest ih => simp only [List.cons_append, useAll, ih]

theorem length_useAll (environment : Environment) (uses : List Use) :
    (environment.useAll uses).2.length = uses.length := by
  induction uses generalizing environment with
  | nil => rfl
  | cons use rest ih => simp only [useAll, List.length_cons, ih]

/-- A name is written once. Each use has the answer that the first definitions before it settle, a
    use that fails changes nothing, and after each number of uses all views show the first
    definitions of these. -/
theorem useAll_writes_once (uses : List Use) :
    (empty.useAll uses).2.length = uses.length ∧ Lists uses (empty.useAll uses).1 ∧
      ∀ before use after, uses = before ++ use :: after →
        Lists before (empty.useAll before).1 ∧
        ∃ answer, (empty.useAll uses).2[before.length]? = some answer ∧ AnswersTo before use answer ∧
          ∀ error, answer = .error error → (empty.useAll (before ++ [use])).1 = (empty.useAll before).1 := by
  have behind : ∀ history, Holds history (empty.useAll history).1 := holds_empty.useAll
  refine ⟨length_useAll empty uses, (behind uses).lists, ?_⟩
  rintro before use after rfl
  refine ⟨(behind before).lists, ((empty.useAll before).1.use use).2, ?_, (behind before).answersTo use, ?_⟩
  · rw [useAll_append, List.getElem?_append_right (Nat.le_of_eq (length_useAll empty before)), length_useAll,
      Nat.sub_self]
    rfl
  · intro error failed
    rw [useAll_append]
    exact use_of_error failed

end LineCalc.Environment
