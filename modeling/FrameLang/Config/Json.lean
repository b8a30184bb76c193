import FrameLang.Config
import FrameLang.Number.Text

/-!
The configuration as a JSON text.

A configuration is an object with at most one member, or an array with at most one element. The text
is read from left to right and the first problem decides, so a text that goes wrong in two ways is
classified by the earlier one.
-/

set_option autoImplicit false

namespace FrameLang.Config

/-- Why a text is no configuration. -/
inductive Fault where
  /-- It is not JSON. -/
  | malformed
  /-- It ends too early. -/
  | unfinished
  /-- It is JSON up to here, but holds something that has no place in a configuration. -/
  | unsuitable
deriving DecidableEq, Repr

/-- Takes bytes from the front of a text and returns what it read with the bytes behind it. -/
def Reader (α : Type) : Type := List UInt8 → Except Fault (α × List UInt8)

namespace Json

def byte (c : Char) : UInt8 := c.toUInt8

def isBlank (b : UInt8) : Bool :=
  b == byte ' ' || b == byte '\n' || b == byte '\t' || b == byte '\r'

def isDigit (b : UInt8) : Bool := byte '0' ≤ b && b ≤ byte '9'

def skipBlanks (bytes : List UInt8) : List UInt8 := bytes.dropWhile isBlank

/-! ### Numbers

Only a number below `2 ^ 64` without sign, fraction and exponent is of use. Of every other number it
matters alone whether it is one: its grammar, and whether it is finite. Its significand takes digits
as long as it stays below `2 ^ 64`. -/

/-- The bound on significands and on whole numbers. -/
def significandBound : Nat := Nat.pow 2 64

/-- Appends digits to a significand up to the first one that would not fit, and counts those that
were appended. -/
def accumulate (significand : Nat) : List UInt8 → Nat × Nat
  | [] => (significand, 0)
  | digit :: digits =>
    let next := 10 * significand + (digit - byte '0').toNat
    if significandBound ≤ next then (significand, 0)
    else
      let (result, count) := accumulate next digits
      (result, count + 1)

/-- Whether a significand times a power of ten overflows, computed in floating point. -/
def overflows (significand : Nat) (exponent : Int) : Bool :=
  significand ≠ 0 && 0 ≤ exponent &&
    (308 < exponent ||
      ((UInt64.ofNat significand).toFloat * Number.ofDigits ('1' :: List.replicate exponent.toNat '0') []).isInf)

/-- A number that is no whole number, if it is finite. -/
def fractional (significand : Nat) (exponent : Int) (rest : List UInt8) :
    Except Fault (Option Nat × List UInt8) :=
  if overflows significand exponent then .error .malformed else .ok (none, rest)

/-- The part of a number behind the letter of its exponent. A written exponent of 31 bits or more is
out of the range of numbers unless it is negative or the significand is zero. -/
def exponentPart (significand : Nat) (exponent : Int) : Reader (Option Nat) := fun bytes =>
  let (negative, rest) := match bytes with
    | b :: rest =>
      if b = byte '-' then (true, rest) else if b = byte '+' then (false, rest) else (false, bytes)
    | [] => (false, [])
  let digits := rest.takeWhile isDigit
  let behind := rest.dropWhile isDigit
  match digits, behind with
  | [], [] => .error .unfinished
  | [], _ :: _ => .error .malformed
  | _ :: _, _ =>
    let written := Number.digitsValue (digits.map fun digit => Char.ofNat digit.toNat)
    if Nat.pow 2 31 ≤ written then
      if significand ≠ 0 ∧ negative = false then .error .malformed else .ok (none, behind)
    else
      fractional significand (if negative then exponent - written else exponent + written) behind

def startsExponent (b : UInt8) : Bool := b == byte 'e' || b == byte 'E'

/-- The part of a number behind its decimal point. -/
def fractionPart (significand : Nat) (exponent : Int) : Reader (Option Nat) := fun bytes =>
  let digits := bytes.takeWhile isDigit
  let behind := bytes.dropWhile isDigit
  let (significand, count) := accumulate significand digits
  match digits, behind with
  | [], [] => .error .unfinished
  | [], _ :: _ => .error .malformed
  | _ :: _, b :: rest =>
    if startsExponent b then exponentPart significand (exponent - count) rest
    else fractional significand (exponent - count) behind
  | _ :: _, [] => fractional significand (exponent - count) []

/-- The part of a number behind its leading digits. Digits that did not fit the significand are
counted in `dropped`. -/
def numberTail (positive : Bool) (significand dropped : Nat) : Reader (Option Nat) := fun bytes =>
  let ended : Except Fault (Option Nat × List UInt8) :=
    if dropped = 0 then .ok (if positive then some significand else none, bytes)
    else fractional significand dropped bytes
  match bytes with
  | b :: rest =>
    if b = byte '.' then fractionPart significand dropped rest
    else if startsExponent b then exponentPart significand dropped rest
    else ended
  | [] => ended

/-- A number behind its sign. A leading zero stands alone. -/
def unsignedNumber (positive : Bool) : Reader (Option Nat) := fun bytes =>
  let digits := bytes.takeWhile isDigit
  let behind := bytes.dropWhile isDigit
  match digits, bytes with
  | [], [] => .error .unfinished
  | [], _ :: _ => .error .malformed
  | first :: more, _ =>
    if first = byte '0' ∧ more ≠ [] then .error .malformed
    else
      let (significand, count) := accumulate 0 digits
      numberTail positive significand (digits.length - count) behind

/-- A number; `some` if it is a whole one without a sign. -/
def number : Reader (Option Nat) := fun bytes =>
  match bytes with
  | b :: rest => if b = byte '-' then unsignedNumber false rest else unsignedNumber true bytes
  | [] => .error .unfinished

/-! ### Strings -/

def hexDigit? (b : UInt8) : Option Nat :=
  if isDigit b then some (b - byte '0').toNat
  else if byte 'a' ≤ b && b ≤ byte 'f' then some ((b - byte 'a').toNat + 10)
  else if byte 'A' ≤ b && b ≤ byte 'F' then some ((b - byte 'A').toNat + 10)
  else none

/-- Four hexadecimal digits. -/
def hexUnit : Reader Nat
  | a :: b :: c :: d :: rest =>
    match hexDigit? a, hexDigit? b, hexDigit? c, hexDigit? d with
    | some a, some b, some c, some d => .ok (((a * 16 + b) * 16 + c) * 16 + d, rest)
    | _, _, _, _ => .error .malformed
  | _ => .error .unfinished

def expectByte (expected : UInt8) : Reader Unit
  | [] => .error .unfinished
  | b :: rest => if b = expected then .ok ((), rest) else .error .malformed

/-- The code point of an escape behind its letter: one unit, or a pair of surrogates in the right
order. -/
def escapedCodePoint : Reader Nat := fun bytes => do
  let (first, rest) ← hexUnit bytes
  if 0xDC00 ≤ first ∧ first ≤ 0xDFFF then .error .malformed
  else if 0xD800 ≤ first ∧ first ≤ 0xDBFF then do
    let ((), rest) ← expectByte (byte '\\') rest
    let ((), rest) ← expectByte (byte 'u') rest
    let (second, rest) ← hexUnit rest
    if 0xDC00 ≤ second ∧ second ≤ 0xDFFF then
      return (0x10000 + (first - 0xD800) * 0x400 + (second - 0xDC00), rest)
    else .error .malformed
  else return (first, rest)

/-- The bytes that an escape behind its backslash stands for. -/
def escape : Reader (List UInt8)
  | [] => .error .unfinished
  | b :: rest =>
    if b = byte '"' ∨ b = byte '\\' ∨ b = byte '/' then .ok ([b], rest)
    else if b = byte 'b' then .ok ([8], rest)
    else if b = byte 'f' then .ok ([12], rest)
    else if b = byte 'n' then .ok ([10], rest)
    else if b = byte 'r' then .ok ([13], rest)
    else if b = byte 't' then .ok ([9], rest)
    else if b = byte 'u' then do
      let (codePoint, rest) ← escapedCodePoint rest
      return ((String.singleton (Char.ofNat codePoint)).toUTF8.toList, rest)
    else .error .malformed

/-- The bytes of a string behind its opening quote, in at most `count` steps. Every step takes at least
one byte of the text. -/
def stringBytes : Nat → Reader (List UInt8)
  | _, [] => .error .unfinished
  | 0, _ :: _ => .error .unfinished
  | count + 1, b :: rest =>
    if b = byte '"' then .ok ([], rest)
    else if b = byte '\\' then do
      let (decoded, rest) ← escape rest
      let (more, rest) ← stringBytes count rest
      return (decoded ++ more, rest)
    else if b < 32 then .error .malformed
    else do
      let (more, rest) ← stringBytes count rest
      return (b :: more, rest)

/-- A string behind its opening quote. Its bytes are checked as a whole. -/
def string : Reader String := fun bytes => do
  let (decoded, rest) ← stringBytes bytes.length bytes
  match String.fromUTF8? ⟨decoded.toArray⟩ with
  | some text => return (text, rest)
  | none => .error .malformed

/-! ### Values without a place in a configuration -/

/-- The rest of a word. -/
def word : List Char → Reader Unit
  | [], bytes => .ok ((), bytes)
  | c :: more, bytes => do
    let ((), rest) ← expectByte (byte c) bytes
    word more rest

/-- The fault of a value that is neither what is asked for nor an array or an object: it may be no
value at all. -/
def misplaced (bytes : List UInt8) : Fault :=
  let faultOf {α : Type} (read : Except Fault (α × List UInt8)) : Fault :=
    match read with
    | .ok _ => .unsuitable
    | .error fault => fault
  match bytes with
  | [] => .unfinished
  | b :: rest =>
    if b = byte 'n' then faultOf (word ['u', 'l', 'l'] rest)
    else if b = byte 't' then faultOf (word ['r', 'u', 'e'] rest)
    else if b = byte 'f' then faultOf (word ['a', 'l', 's', 'e'] rest)
    else if b = byte '-' ∨ isDigit b then faultOf (number bytes)
    else if b = byte '"' then faultOf (string rest)
    else .malformed

/-! ### The configuration -/

/-- A limit: a whole number that 64 bits hold. -/
def limit : Reader UInt64 := fun bytes =>
  match skipBlanks bytes with
  | [] => .error .unfinished
  | b :: rest =>
    if b = byte '-' ∨ isDigit b then do
      match ← number (b :: rest) with
      | (some value, rest) => return (UInt64.ofNat value, rest)
      | (none, _) => .error .unsuitable
    else if b = byte '[' ∨ b = byte '\x7b' then .error .unsuitable
    else .error (misplaced (b :: rest))

/-- The end of an array. A comma that is not followed by an element is no JSON, and a second element
would be one too many. -/
def arrayEnd : Reader Unit := fun bytes =>
  match skipBlanks bytes with
  | [] => .error .unfinished
  | b :: rest => if b = byte ']' then .ok ((), rest) else .error .malformed

/-- An array behind its opening bracket. -/
def array : Reader Config := fun bytes =>
  match skipBlanks bytes with
  | [] => .error .unfinished
  | b :: rest =>
    if b = byte ']' then .ok ({}, rest)
    else do
      let (maxCallDepth, rest) ← limit (b :: rest)
      let ((), rest) ← arrayEnd rest
      return ({ maxCallDepth }, rest)

def fieldName : String := "max_call_depth"

/-- A member of an object behind the opening quote of its key, without its value. Only a key that has
not been read before has a place. -/
def key (fresh : Bool) : Reader Unit := fun bytes => do
  let (name, rest) ← string bytes
  if name = fieldName ∧ fresh then return ((), rest) else .error .unsuitable

def colon : Reader Unit := fun bytes =>
  match skipBlanks bytes with
  | [] => .error .unfinished
  | b :: rest => if b = byte ':' then .ok ((), rest) else .error .malformed

/-- An object behind its first member. A further member cannot have a fresh key. -/
def objectEnd : Reader Unit := fun bytes =>
  match skipBlanks bytes with
  | [] => .error .unfinished
  | b :: rest =>
    if b = byte '\x7d' then .ok ((), rest)
    else if b = byte ',' then
      match skipBlanks rest with
      | [] => .error .unfinished
      | b :: rest => if b = byte '"' then key false rest else .error .malformed
    else .error .malformed

/-- An object behind its opening brace. -/
def object : Reader Config := fun bytes =>
  match skipBlanks bytes with
  | [] => .error .unfinished
  | b :: rest =>
    if b = byte '\x7d' then .ok ({}, rest)
    else if b = byte '"' then do
      let ((), rest) ← key true rest
      let ((), rest) ← colon rest
      let (maxCallDepth, rest) ← limit rest
      let ((), rest) ← objectEnd rest
      return ({ maxCallDepth }, rest)
    else .error .malformed

def document : Reader Config := fun bytes =>
  match skipBlanks bytes with
  | [] => .error .unfinished
  | b :: rest =>
    if b = byte '[' then array rest
    else if b = byte '\x7b' then object rest
    else .error (misplaced (b :: rest))

end Json

/-- The configuration that a JSON text holds. Nothing but whitespace may follow it. -/
def ofJson (bytes : List UInt8) : Except Fault Config := do
  let (config, rest) ← Json.document bytes
  match Json.skipBlanks rest with
  | [] => return config
  | _ :: _ => .error .malformed

/-- A configuration as a JSON text. -/
def toJson (config : Config) : String :=
  "\x7b\"" ++ Json.fieldName ++ "\":" ++ toString config.maxCallDepth.toNat ++ "\x7d"

end FrameLang.Config
