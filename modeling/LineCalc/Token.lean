import LineCalc.Text

/-!
The words of a line. Columns count characters from 1; the end token stands where reading stopped
and has no characters.
-/
namespace LineCalc

inductive TokenKind
  | ident
  | int
  | assign
  | plus
  | minus
  | star
  | slash
  | percent
  | eof
  deriving DecidableEq

namespace TokenKind

/-- In the order of their numbers. -/
def all : List TokenKind := [ident, int, assign, plus, minus, star, slash, percent, eof]

def number : TokenKind → Nat
  | ident => 1
  | int => 2
  | assign => 3
  | plus => 4
  | minus => 5
  | star => 6
  | slash => 7
  | percent => 8
  | eof => 9

def name : TokenKind → Text
  | ident => "IDENT".toList
  | int => "INT".toList
  | assign => "ASSIGN".toList
  | plus => "PLUS".toList
  | minus => "MINUS".toList
  | star => "STAR".toList
  | slash => "SLASH".toList
  | percent => "PERCENT".toList
  | eof => "EOF".toList

def ofName? (text : Text) : Option TokenKind := all.find? fun kind => kind.name == text

def symbols : List (Text × TokenKind) :=
  [([':', '='], assign), (['+'], plus), (['-'], minus), (['*'], star), (['/'], slash), (['%'], percent)]

def ofSymbol? (text : Text) : Option TokenKind := symbols.lookup text

/-- The symbol that an arithmetic operator is written with. -/
def operatorSymbol? : TokenKind → Option Text
  | plus => some ['+']
  | minus => some ['-']
  | star => some ['*']
  | slash => some ['/']
  | percent => some ['%']
  | ident | int | assign | eof => none

def isAdditive (kind : TokenKind) : Bool := kind = plus || kind = minus

/-- The operators that join operands to a term. -/
def isMultiplicative (kind : TokenKind) : Bool := kind = star || kind = slash || kind = percent

end TokenKind

structure Token where
  kind : TokenKind
  lexeme : Text
  column : Int
  deriving DecidableEq

/-- The column right after a token. -/
def Token.endColumn (token : Token) : Int := token.column + token.lexeme.length

def Token.atEnd (column : Int) : Token := ⟨.eof, [], column⟩

end LineCalc
