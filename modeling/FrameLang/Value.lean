import FrameLang.Span
import FrameLang.Number.Text

/-!
Values of the language. There is one kind of datum, a binary64 number; the span says which part of
a source text produced it and takes no part in any comparison.
-/

set_option autoImplicit false

namespace FrameLang

structure Value where
  number : Float
  span : Span
deriving DecidableEq

namespace Value

/-- A value that no source text produced. -/
def ofNumber (number : Float) : Value := ⟨number, Span.empty⟩

/-- Every number except the two zeros counts as true, also one that is not a number. -/
def isTruthy (value : Value) : Bool := value.number != 0

def text (value : Value) : String := Number.text value.number

/-- The order of two numbers, if they have one. The two zeros are equal, and a value that is not a
number has no place in the order. -/
def compare? (left right : Value) : Option Ordering :=
  if left.number < right.number then some .lt
  else if left.number == right.number then some .eq
  else if right.number < left.number then some .gt
  else none

end Value

end FrameLang
