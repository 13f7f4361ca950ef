import LineCalc.LineError

/-!
The tokens at the start of a line: at each place the longest one that fits, up to the end of the
line, a limit of tokens, or a character that begins none.
-/
namespace LineCalc

def isNameCharacter (c : Char) : Bool := c.isAlpha || c.isDigit

/-- A token without its column, and the text after it. -/
structure Munch where
  kind : TokenKind
  lexeme : Text
  after : Text
  deriving DecidableEq

def Munch.pair? (c : Char) : Text → Option Munch
  | [] => none
  | d :: after => (TokenKind.ofSymbol? [c, d]).map fun kind => ⟨kind, [c, d], after⟩

def Munch.single? (c : Char) (rest : Text) : Option Munch :=
  (TokenKind.ofSymbol? [c]).map fun kind => ⟨kind, [c], rest⟩

/-- A symbol of two characters goes before one of one. -/
def Munch.symbol? (c : Char) (rest : Text) : Option Munch := (pair? c rest).or (single? c rest)

/-- The longest token at the start of a text that begins with `c`. -/
def Munch.ofText? (c : Char) (rest : Text) : Option Munch :=
  if c.isAlpha then some ⟨.ident, c :: rest.takeWhile isNameCharacter, rest.dropWhile isNameCharacter⟩
  else if c.isDigit then some ⟨.int, c :: rest.takeWhile Char.isDigit, rest.dropWhile Char.isDigit⟩
  else symbol? c rest

theorem Munch.symbol?_append {c : Char} {rest : Text} {munch : Munch} (found : symbol? c rest = some munch) :
    munch.lexeme ++ munch.after = c :: rest ∧ munch.after.length ≤ rest.length := by
  rcases Option.or_eq_some_iff.1 found with pair | ⟨_, single⟩
  · cases rest with
    | nil => simp [pair?] at pair
    | cons d after =>
      obtain ⟨_, _, rfl⟩ := Option.map_eq_some_iff.1 pair
      simp
  · obtain ⟨_, _, rfl⟩ := Option.map_eq_some_iff.1 single
    simp

theorem Munch.ofText?_append {c : Char} {rest : Text} {munch : Munch} (found : ofText? c rest = some munch) :
    munch.lexeme ++ munch.after = c :: rest := by
  unfold ofText? at found
  split at found
  · cases found; simp
  · split at found
    · cases found; simp
    · exact (symbol?_append found).1

theorem Munch.after_length {c : Char} {rest : Text} {munch : Munch} (found : ofText? c rest = some munch) :
    munch.after.length ≤ rest.length := by
  unfold ofText? at found
  split at found
  · cases found; exact (List.dropWhile_sublist _).length_le
  · split at found
    · cases found; exact (List.dropWhile_sublist _).length_le
    · exact (symbol?_append found).2

/-- The tokens, the count of characters behind the scan, and the character that it refused, which is
    the last of those. -/
structure Scan where
  tokens : List Token
  stop : Nat
  refused : Option Char
  deriving DecidableEq

namespace Scan

def prepend (token : Token) (scan : Scan) : Scan := { scan with tokens := token :: scan.tokens }

/-- Scans a text that begins after `position` characters of its line, for as many tokens as there is
    room for. -/
def scanFrom (room : Option Nat) (position : Nat) : Text → Scan
  | [] => ⟨[], position, none⟩
  | c :: rest =>
    if room = some 0 then ⟨[], position, none⟩
    else if Text.isGap c then scanFrom room (position + 1) rest
    else match found : Munch.ofText? c rest with
      | some munch =>
        (scanFrom (room.map (· - 1)) (position + munch.lexeme.length) munch.after).prepend
          ⟨munch.kind, munch.lexeme, position + 1⟩
      | none => ⟨[], position + 1, some c⟩
termination_by text => text.length
decreasing_by
  · simp
  · have := Munch.after_length found
    simp only [List.length_cons]
    omega

/-- A limit below one leaves room for no token. -/
def ofText (limit : Option Int) (line : Text) : Scan := scanFrom (limit.map Int.toNat) 0 line

/-- The tokens with the end token after them, or the error of the refused character. -/
def result (scan : Scan) : Except LineError (List Token) :=
  match scan.refused with
  | some c => .error (.invalidCharacter [c] scan.stop)
  | none => .ok (scan.tokens ++ [Token.atEnd (scan.stop + 1)])

def tokenize (limit : Option Int) (line : Text) : Except LineError (List Token) := (ofText limit line).result

def opensAssignment : List Token → Bool
  | first :: second :: _ => first.kind = .ident && second.kind = .assign
  | _ => false

/-- Of an assignment the first two tokens, whatever stands after them, and of any other line all. -/
def ofStatement (line : Text) : Except LineError (List Token) :=
  match tokenize (some 2) line with
  | .error error => .error error
  | .ok head => if opensAssignment head then .ok head else tokenize none line

end Scan
end LineCalc
