import LineCalc.Template

/-!
Where text is written to.
-/
namespace LineCalc.Output

/-- Only a format with arguments is read as a template. -/
def printf (format : Text) (arguments : List Template.Argument) : Except Template.Fault Text :=
  if arguments.isEmpty then .ok format else Template.fill format arguments

/-- The pieces that were written, in order. -/
structure Buffer where
  pieces : List Text

namespace Buffer

def empty : Buffer := ⟨[]⟩

def write (buffer : Buffer) (text : Text) : Buffer := ⟨buffer.pieces ++ [text]⟩

def printf (buffer : Buffer) (format : Text) (arguments : List Template.Argument) : Except Template.Fault Buffer :=
  (Output.printf format arguments).map buffer.write

def contents (buffer : Buffer) : Text := buffer.pieces.flatten

end Buffer
end LineCalc.Output
