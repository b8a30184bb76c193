import FrameLang.Expr

/-!
Tokens and the longest token at the front of a text. Characters outside ASCII occur in no token.
-/

set_option autoImplicit false

namespace FrameLang

/-- The tokens with one spelling each. -/
inductive Symbol where
  | letWord
  | inWord
  | ifWord
  | thenWord
  | elseWord
  | leftParen
  | rightParen
  | assign
  | semicolon
  | plus
  | minus
  | greater
  | greaterEqual
  | less
  | lessEqual
  | equal
  | notEqual
deriving DecidableEq, Repr

namespace Symbol

def spelling : Symbol → String
  | letWord => "let"
  | inWord => "in"
  | ifWord => "if"
  | thenWord => "then"
  | elseWord => "else"
  | leftParen => "("
  | rightParen => ")"
  | assign => "="
  | semicolon => ";"
  | plus => "+"
  | minus => "-"
  | greater => ">"
  | greaterEqual => ">="
  | less => "<"
  | lessEqual => "<="
  | equal => "=="
  | notEqual => "!="

/-- The reserved words. They are symbols only as whole words. -/
def words : List Symbol := [letWord, inWord, ifWord, thenWord, elseWord]

/-- The symbols made of signs, each one before its own beginnings, so the first that fits is the
longest. -/
def signs : List Symbol :=
  [greaterEqual, lessEqual, equal, notEqual, leftParen, rightParen, assign, semicolon, plus, minus,
    greater, less]

def additive? : Symbol → Option AdditiveOp
  | plus => some .add
  | minus => some .sub
  | _ => none

def comparison? : Symbol → Option Comparison
  | greater => some .greater
  | greaterEqual => some .greaterEqual
  | less => some .less
  | lessEqual => some .lessEqual
  | equal => some .equal
  | notEqual => some .notEqual
  | _ => none

end Symbol

inductive Token where
  | symbol (symbol : Symbol)
  | number (number : Float)
  | identifier (name : String)
deriving DecidableEq

namespace Token

def startsWord (c : Char) : Bool := c.isAlpha || c == '_'

def continuesWord (c : Char) : Bool := c.isAlphanum || c == '_' || c == '\''

/-- A word is a reserved one only if it is spelled exactly so. -/
def ofWord (word : String) : Token :=
  match Symbol.words.find? (fun symbol => symbol.spelling == word) with
  | some reserved => .symbol reserved
  | none => .identifier word

/-- The digits of a number before and after its decimal point. A point without a digit behind it is
no part of the number. -/
def numberDigits (chars : List Char) : List Char × List Char :=
  let whole := chars.takeWhile Char.isDigit
  match chars.drop whole.length with
  | '.' :: rest => (whole, rest.takeWhile Char.isDigit)
  | _ => (whole, [])

/-- The longest token at the front of the text, with the number of its characters. -/
def scan? : List Char → Option (Token × Nat)
  | [] => none
  | c :: chars =>
    if c.isDigit then
      let (whole, fraction) := numberDigits (c :: chars)
      let length := if fraction.isEmpty then whole.length else whole.length + 1 + fraction.length
      some (.number (Number.ofDigits whole fraction), length)
    else if startsWord c then
      let word := c :: chars.takeWhile continuesWord
      some (ofWord (String.ofList word), word.length)
    else
      (Symbol.signs.find? (fun sign => sign.spelling.toList.isPrefixOf (c :: chars))).map
        fun sign => (.symbol sign, sign.spelling.length)

end Token

end FrameLang
