import LineCalc.Files
import LineCalc.Json.Reader
import LineCalc.Json.Writer
import LineCalc.Text.Utf8

/-!
Values that are kept in a file under their keys. A file that cannot be read as an object counts as
empty, with a warning (`Preferences.load`); storing a value writes the whole file anew
(`Preferences.put`).
-/
namespace LineCalc.Preferences

/-- What is told when the file cannot be used. -/
inductive Warning
  | unreadable
  | malformed
  deriving DecidableEq

def Warning.name : Warning → Text
  | unreadable => "unreadable".toList
  | malformed => "malformed".toList

/-- Why a value is not stored. -/
inductive Refusal
  | isADirectory
  deriving DecidableEq

/-- The fields that a text holds, or what is wrong with it. -/
def fieldsOf (text : Text) : Except Warning (List (Text.Units × Json)) :=
  match Json.read? text with
  | none => .error .unreadable
  | some (.obj fields) => .ok fields
  | some _ => .error .malformed

/-- A file that is not there holds no fields. -/
def load : FileState → Except Warning (List (Text.Units × Json))
  | .absent => .ok []
  | .directory => .error .unreadable
  | .bytes content =>
    match Text.decodeUtf8? content with
    | none => .error .unreadable
    | some text => fieldsOf text

def warnings {α : Type} : Except Warning α → List Warning
  | .error warning => [warning]
  | .ok _ => []

/-- The fields of a load, none if it failed. -/
def usable : Except Warning (List (Text.Units × Json)) → List (Text.Units × Json)
  | .error _ => []
  | .ok fields => fields

def get (file : FileState) (key : Text.Units) (default : Json) : Json :=
  (Json.field? key (usable (load file))).getD default

def textOf (fields : List (Text.Units × Json)) : Text := Json.write (.obj fields)

def put (file : FileState) (key : Text.Units) (value : Json) : Except Refusal FileState :=
  match file with
  | .directory => .error .isADirectory
  | _ => .ok (.bytes (Text.encodeUtf8 (textOf (Json.putField key value (usable (load file))))))

end LineCalc.Preferences
