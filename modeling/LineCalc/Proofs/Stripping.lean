import LineCalc.Proofs.Lexemes
import Mathlib.Data.List.DropRight

/-!
What stripping leaves of a text. It is empty, or it begins and ends outside of the class
(`Text.Stripped`) and stands in the text between characters of the class (`Text.exists_strip`);
there is no other such piece (`Text.strip_append`).
-/
namespace LineCalc.Text

/-- The empty text has neither a first nor a last character. -/
def Stripped (class_ : Char → Bool) (text : Text) : Prop :=
  (∃ c, text.head? = some c ∧ class_ c = false) ∧ ∃ c, text.getLast? = some c ∧ class_ c = false

variable {class_ : Char → Bool} {left text right : Text}

theorem mem_stripLeft {c : Char} (member : c ∈ text) (outside : class_ c = false) : c ∈ stripLeft class_ text := by
  rw [← List.takeWhile_append_dropWhile (p := class_) (l := text)] at member
  rcases List.mem_append.mp member with dropped | kept
  · have inside := Munch.inside_takeWhile class_ text c dropped
    rw [outside] at inside
    exact absurd inside Bool.false_ne_true
  · exact kept

theorem mem_strip {c : Char} (member : c ∈ text) (outside : class_ c = false) : c ∈ strip class_ text := by
  have left := mem_stripLeft member outside
  have right := mem_stripLeft (List.mem_reverse.mpr left) outside
  exact List.mem_reverse.mpr right

theorem strip_subset (class_ : Char → Bool) (text : Text) : strip class_ text ⊆ text := by
  intro c member
  have right : c ∈ (stripLeft class_ text).reverse := (List.dropWhile_sublist _).subset (List.mem_reverse.mp member)
  exact (List.dropWhile_sublist _).subset (List.mem_reverse.mp right)

theorem head_strip {rest : Text} {c : Char} (stripped : strip class_ text = c :: rest) : class_ c = false := by
  obtain ⟨more, whole⟩ : strip class_ text <+: stripLeft class_ text := List.rdropWhile_prefix class_ _
  refine Munch.boundary_dropWhile class_ text c ?_
  rw [stripped] at whole
  show (stripLeft class_ text).head? = some c
  rw [← whole]
  rfl

theorem strip_eq_nil_iff : strip class_ text = [] ↔ ∀ c ∈ text, class_ c = true := by
  constructor
  · intro empty c member
    by_contra outside
    have kept := mem_strip member (eq_false_of_ne_true outside)
    rw [empty] at kept
    cases kept
  · intro inside
    have none : stripLeft class_ text = [] := List.dropWhile_eq_nil_iff.mpr inside
    rw [strip, none]
    rfl

section
variable (insideLeft : ∀ c ∈ left, class_ c = true) (stripped : Stripped class_ text)
include insideLeft stripped

theorem stripLeft_append (right : Text) : stripLeft class_ (left ++ text ++ right) = text ++ right := by
  obtain ⟨⟨c, first, outside⟩, -⟩ := stripped
  have boundary : ∀ d, (text ++ right).head? = some d → class_ d = false := by
    intro d head
    rw [List.head?_append, first, Option.some_or] at head
    cases head
    exact outside
  rw [List.append_assoc]
  exact (Munch.split_at_boundary insideLeft boundary).2

/-- A piece that begins and ends outside of the class is left when what stands around it is
    stripped. -/
theorem strip_append (insideRight : ∀ c ∈ right, class_ c = true) : strip class_ (left ++ text ++ right) = text := by
  have flipped : Stripped class_ text.reverse := by
    obtain ⟨first, last⟩ := stripped
    rw [Stripped, List.head?_reverse, List.getLast?_reverse]
    exact ⟨last, first⟩
  have backward := stripLeft_append (fun c member => insideRight c (List.mem_reverse.mp member)) flipped []
  rw [List.append_nil, List.append_nil, ← List.reverse_append] at backward
  rw [strip, stripLeft_append insideLeft stripped right, stripRight, ← stripLeft, backward, List.reverse_reverse]

end

/-- What is left of a text, if anything is, stands in it between characters of the class. -/
theorem exists_strip (nonempty : strip class_ text ≠ []) :
    ∃ left right, text = left ++ strip class_ text ++ right ∧ (∀ c ∈ left, class_ c = true) ∧
      (∀ c ∈ right, class_ c = true) ∧ Stripped class_ (strip class_ text) := by
  refine ⟨text.takeWhile class_, (stripLeft class_ text).rtakeWhile class_, ?_, Munch.inside_takeWhile class_ text,
    fun c member => List.mem_rtakeWhile_imp member, ?_, ?_⟩
  · have right : strip class_ text ++ (stripLeft class_ text).rtakeWhile class_ = stripLeft class_ text :=
      List.rdropWhile_append_rtakeWhile
    rw [List.append_assoc, right]
    exact List.takeWhile_append_dropWhile.symm
  · obtain ⟨c, rest, left⟩ := List.exists_cons_of_ne_nil nonempty
    exact ⟨c, by rw [left]; rfl, head_strip left⟩
  · have outside := List.rdropWhile_last_not class_ (stripLeft class_ text) nonempty
    exact ⟨_, List.getLast?_eq_some_getLast nonempty, eq_false_of_ne_true outside⟩

end LineCalc.Text
