import FrameLang.Number.Shortest

/-!
Numbers as text. Writing uses the fewest digits that read back, always in positional notation;
reading rounds to the nearest number, a tie to the even one.
-/

set_option autoImplicit false

namespace FrameLang.Number

/-- The whole number that a row of decimal digits denotes. -/
def digitsValue (digits : List Char) : Nat :=
  digits.foldl (fun total digit => 10 * total + (digit.toNat - '0'.toNat)) 0

theorem digitsValue_toDigits (value : Nat) : digitsValue (Nat.toDigits 10 value) = value :=
  Nat.ofDigitChars_ten_toDigits

theorem isDigit_of_mem_toDigits {value : Nat} {c : Char} (member : c ∈ Nat.toDigits 10 value) :
    c.isDigit = true :=
  Nat.isDigit_of_mem_toDigits (by decide) (by decide) member

/-- The number nearest to `whole.fraction`, for two rows of decimal digits. -/
def ofDigits (whole fraction : List Char) : Float :=
  Float.ofBits (UInt64.ofNat
    (Magnitude.nearest (digitsValue (whole ++ fraction) * Magnitude.unitsPerOne)
      (Nat.pow 10 fraction.length)))

/-- Places a decimal point before the last `places` digits, with leading zeros as needed. -/
def placePoint (digits : List Char) (places : Nat) : List Char :=
  if digits.length ≤ places then
    '0' :: '.' :: (List.replicate (places - digits.length) '0' ++ digits)
  else
    digits.take (digits.length - places) ++ '.' :: digits.drop (digits.length - places)

/-- Positional notation without an exponent. A whole number has no decimal point. -/
def GridPoint.chars (point : GridPoint) : List Char :=
  let digits := Nat.toDigits 10 point.digits
  if exactPlaces ≤ point.grid then digits ++ List.replicate (point.grid - exactPlaces) '0'
  else placePoint digits (exactPlaces - point.grid)

/-- The text of a finite number without its sign. -/
def Magnitude.chars (pattern : Nat) : List Char :=
  if pattern = 0 then ['0'] else (Neighbourhood.ofPattern pattern).roundest.chars

/-- The text of any number. There is one text for all numbers that are not a number, and it has no
sign; zero keeps its sign. -/
def text (number : Float) : String :=
  let bits := number.toBits.toNat
  let pattern := bits % Magnitude.signBit
  if Magnitude.infinity < pattern then "NaN"
  else
    let sign := if bits < Magnitude.signBit then "" else "-"
    if pattern = Magnitude.infinity then sign ++ "inf"
    else sign ++ String.ofList (Magnitude.chars pattern)

/-- A row of one or more decimal digits, or two of them around a decimal point. -/
def ofUnsigned? (chars : List Char) : Option Float :=
  let (whole, rest) := chars.span Char.isDigit
  match whole, rest with
  | [], _ => none
  | _ :: _, [] => some (ofDigits whole [])
  | _ :: _, '.' :: fraction =>
    if fraction ≠ [] ∧ fraction.all Char.isDigit then some (ofDigits whole fraction) else none
  | _ :: _, _ :: _ => none

/-- Reads every text that `text` writes, and any other digits with an optional fraction and sign. -/
def ofText? (text : String) : Option Float :=
  match text.toList with
  | ['N', 'a', 'N'] => some (0 / 0)
  | ['i', 'n', 'f'] => some (1 / 0)
  | ['-', 'i', 'n', 'f'] => some (-1 / 0)
  | '-' :: chars => (ofUnsigned? chars).map (-·)
  | chars => ofUnsigned? chars

end FrameLang.Number
