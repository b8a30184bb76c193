import FrameLang.Unprintable

/-!
Places in a source text. A span is carried for diagnostics only: no operation of the language reads
it, and nothing here requires its offsets and its text to agree.
-/

set_option autoImplicit false

namespace FrameLang

/-- Two byte offsets and the text between them. -/
structure Span where
  start : Nat
  stop : Nat
  text : String
deriving DecidableEq, Repr

namespace Span

/-- The span of everything that was built without a source text. -/
def empty : Span := ⟨0, 0, ""⟩

/-- A span points nowhere if it covers no byte and quotes no text. -/
def isEmpty (span : Span) : Bool := span.start == span.stop && span.text == ""

/-- The offsets as a half-open range. -/
def range (span : Span) : String := toString span.start ++ ".." ++ toString span.stop

/-- A character inside double quotes. A character that does not show for itself, and has no letter
of its own, is written by its code in hexadecimal digits. -/
def quotedChar (c : Char) : List Char :=
  if c = '"' then ['\\', '"']
  else if c = '\\' then ['\\', '\\']
  else if c = '\n' then ['\\', 'n']
  else if c = '\t' then ['\\', 't']
  else if c = '\r' then ['\\', 'r']
  else if c = '\x00' then ['\\', '0']
  else if isUnprintable c then
    "\\u\x7b".toList ++ Nat.toDigits 16 c.toNat ++ "\x7d".toList
  else [c]

/-- The range and the quoted text, on one line. -/
def describe (span : Span) : String :=
  span.range ++ " \"" ++ String.ofList (span.text.toList.flatMap quotedChar) ++ "\""

end Span

end FrameLang
