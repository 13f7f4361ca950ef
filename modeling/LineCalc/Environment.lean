import LineCalc.LineError

/-!
The names that a run has bound, in the order of their binding. A name is bound once
(`Environment.define`).
-/
namespace LineCalc

structure Environment where
  bindings : List (Text × Int)
  deriving DecidableEq

namespace Environment

def empty : Environment := ⟨[]⟩

def names (environment : Environment) : List Text := environment.bindings.map Prod.fst

def size (environment : Environment) : Nat := environment.bindings.length

def contains (environment : Environment) (name : Text) : Bool := environment.names.contains name

def lookup? (environment : Environment) (name : Text) : Option Int := environment.bindings.lookup name

/-- The value of a name, or the error that it has none. -/
def lookup (environment : Environment) (name : Text) : Except LineError Int :=
  match environment.lookup? name with
  | some value => .ok value
  | none => .error (.undefinedVariable name)

/-- Binds a name behind the others. -/
def define (environment : Environment) (name : Text) (value : Int) : Except LineError Environment :=
  match environment.lookup? name with
  | some existing => .error (.redefinition name existing)
  | none => .ok ⟨environment.bindings ++ [(name, value)]⟩

def snapshot (environment : Environment) : List (Text × Text) :=
  environment.bindings.map fun (name, value) => (name, Numeral.print value)

variable {environment : Environment} {name : Text}

theorem define_of_bound {existing : Int} (bound : environment.lookup? name = some existing) (value : Int) :
    environment.define name value = .error (.redefinition name existing) := by
  rw [define, bound]

theorem define_of_unbound (unbound : environment.lookup? name = none) (value : Int) :
    environment.define name value = .ok ⟨environment.bindings ++ [(name, value)]⟩ := by
  rw [define, unbound]

theorem lookup?_append (bindings more : List (Text × Int)) (name : Text) :
    lookup? ⟨bindings ++ more⟩ name = (lookup? ⟨bindings⟩ name).or (lookup? ⟨more⟩ name) := by
  simp only [lookup?]
  induction bindings with
  | nil => simp
  | cons binding rest ih =>
    obtain ⟨other, value⟩ := binding
    cases same : name == other <;> simp [List.lookup_cons, same, ih]

end Environment
end LineCalc
