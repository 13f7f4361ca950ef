import LineCalc.Text.Utf8

/-!
A snapshot of the files below a directory, and how paths are looked up in it (`Files.read`).
Nothing is known of what lies outside of the directory but the directories above it.
-/
namespace LineCalc

inductive FileState
  | absent
  | bytes (content : ByteArray)
  | directory

/-- Why a path cannot be read. -/
inductive ReadError
  | notFound
  | notPermitted
  | notADirectory
  | isADirectory
  | nameTooLong
  deriving DecidableEq

namespace ReadError

def number : ReadError → Nat
  | notFound => 2
  | notPermitted => 13
  | notADirectory => 20
  | isADirectory => 21
  | nameTooLong => 36

def message : ReadError → Text
  | notFound => "No such file or directory".toList
  | notPermitted => "Permission denied".toList
  | notADirectory => "Not a directory".toList
  | isADirectory => "Is a directory".toList
  | nameTooLong => "File name too long".toList

end ReadError

/-- Paths from a directory on, with what they stand for. -/
structure Files where
  entries : List (Text × FileState)

namespace Files

def extendName (c : Char) : List Text → List Text
  | [] => [[c]]
  | name :: rest => (c :: name) :: rest

/-- The names between the slashes of a path. -/
def namesOf : Text → List Text
  | [] => [[]]
  | c :: rest => if c = '/' then [] :: namesOf rest else extendName c (namesOf rest)

/-- A directory is there as soon as something lies in it. -/
def stateOf (files : Files) (names : List Text) : FileState :=
  match files.entries.find? fun (path, _) => namesOf path == names with
  | some (_, state) => state
  | none => if files.entries.any fun (path, _) => names.isPrefixOf (namesOf path) then .directory else .absent

/-- A name has at most this many bytes. -/
def nameBound : Nat := 255

/-- A path has fewer bytes than this. -/
def pathBound : Nat := 4096

/-- Follows names from a place, which is a list of names from the directory on, or lies outside of
    it. -/
def follow (files : Files) (place : Option (List Text)) : List Text → Except ReadError ByteArray
  | [] => .error .isADirectory
  | name :: rest =>
    if name.isEmpty || name = ['.'] then follow files place rest
    else if name = ['.', '.'] then
      follow files (place.bind fun names => if names.isEmpty then none else some names.dropLast) rest
    else if nameBound < (Text.encodeUtf8 name).size then .error .nameTooLong
    else match place with
      | none => .error .notFound
      | some names =>
        match files.stateOf (names ++ [name]) with
        | .absent => .error .notFound
        | .directory => follow files (some (names ++ [name])) rest
        | .bytes content => if rest.isEmpty then .ok content else .error .notADirectory

/-- Whether a path can be followed: it is not empty and has no null character. -/
def isPath (path : Text) : Bool := !path.isEmpty && !path.contains '\x00'

def read (files : Files) (path : Text) : Except ReadError ByteArray :=
  if !isPath path then .error .notFound
  else if pathBound ≤ (Text.encodeUtf8 path).size then .error .nameTooLong
  else follow files (if path.head? = some '/' then none else some []) (namesOf path)

end Files
end LineCalc
