import LineCalc.Double
import LineCalc.Text.Units

/-!
Values of the JSON notation. Texts and keys are units of sixteen bits, as the notation has it, and
a key has one value (`Json.putField`).
-/
namespace LineCalc

inductive Json
  | null
  | bool (value : Bool)
  | int (value : Int)
  | real (value : Double)
  | str (units : Text.Units)
  | arr (items : List Json)
  | obj (fields : List (Text.Units × Json))

namespace Json

def field? (key : Text.Units) (fields : List (Text.Units × Json)) : Option Json := fields.lookup key

/-- A new key stands behind the others, a known one stays where it is. -/
def putField (key : Text.Units) (value : Json) : List (Text.Units × Json) → List (Text.Units × Json)
  | [] => [(key, value)]
  | (other, old) :: rest =>
    if other = key then (key, value) :: rest else (other, old) :: putField key value rest

def ofText (text : Text) : Json := str text.units

def ofText? : Option Text → Json
  | some text => ofText text
  | none => null

theorem field?_putField_self (key : Text.Units) (value : Json) (fields : List (Text.Units × Json)) :
    field? key (putField key value fields) = some value := by
  induction fields with
  | nil => simp [putField, field?]
  | cons first rest ih =>
    obtain ⟨other, old⟩ := first
    by_cases same : other = key
    · simp [putField, same, field?]
    · have differs : (key == other) = false := beq_eq_false_iff_ne.2 (Ne.symm same)
      simpa [putField, same, field?, List.lookup_cons, differs] using ih

theorem field?_putField_other {key other : Text.Units} (value : Json) (fields : List (Text.Units × Json))
    (differs : other ≠ key) : field? other (putField key value fields) = field? other fields := by
  have apart : (other == key) = false := beq_eq_false_iff_ne.2 differs
  induction fields with
  | nil => simp [putField, field?, List.lookup_cons, apart]
  | cons first rest ih =>
    obtain ⟨name, old⟩ := first
    by_cases same : name = key
    · simp [putField, same, field?, List.lookup_cons, apart]
    · unfold field? at ih ⊢
      simp only [putField, same, if_false, List.lookup_cons]
      split <;> simp_all

end Json
end LineCalc
