import FrameLang.Program
import FrameLang.Transcript

/-!
The line prompt. Each line is a source text of its own; functions that it registers stay for the
lines after it. A line is given up at its first failing declaration, so that nothing of it is left
over for the next line.
-/

set_option autoImplicit false

namespace FrameLang.Prompt

/-- What one line did: the text that it shows, the program afterwards, and whether the prompt goes
on. -/
structure Reply where
  shown : String := ""
  program : Program
  continues : Bool := true

/-- A reply that shows one more line first. -/
def Reply.showing (line : String) (reply : Reply) : Reply :=
  { reply with shown := line ++ "\n" ++ reply.shown }

/-- Processes declarations one at a time, up to and including the first that fails. -/
def process (program : Program) : List Declaration → Reply
  | [] => { program }
  | declaration :: rest =>
    match (program.extend [declaration]).step with
    | none => process (program.extend [declaration]) rest
    | some progress =>
      match progress.result with
      | .ok none => process progress.program rest
      | .ok (some value) => (process progress.program rest).showing value.text
      | .error error =>
        if error.isFatal then
          Reply.showing ("Fatal: " ++ error.report)
            { program := progress.program, continues := false }
        else Reply.showing error.report { program := progress.program }

/-- The reply to one line. A line that cannot be read changes nothing. -/
def reply (program : Program) (line : String) : Reply :=
  match parse line with
  | .error error => Reply.showing error.report { program }
  | .ok declarations => process program declarations

/-- A line that ends with a line feed, without a carriage return before it. `reversed` holds its bytes
in reverse. -/
def finishLine : List UInt8 → List UInt8
  | 13 :: reversed => reversed.reverse
  | reversed => reversed.reverse

/-- The lines of an input, where `reversed` holds the bytes of the first line so far in reverse. The
last line needs no line feed if it is not empty. -/
def linesFrom (reversed : List UInt8) : List UInt8 → List (List UInt8)
  | [] => if reversed.isEmpty then [] else [reversed.reverse]
  | b :: bytes =>
    if b = 10 then finishLine reversed :: linesFrom [] bytes else linesFrom (b :: reversed) bytes

def lines (input : List UInt8) : List (List UInt8) := linesFrom [] input

def invitation : String := "> "

/-- Everything that is shown for the given lines. The invitation comes before each line is read, and
so also before the end of the input is noticed. A line that is not UTF-8 ends the input. -/
def answer (program : Program) : List (List UInt8) → String
  | [] => invitation
  | line :: rest =>
    match String.fromUTF8? ⟨line.toArray⟩ with
    | none => invitation
    | some text =>
      let reply := reply program text
      if reply.continues then invitation ++ reply.shown ++ answer reply.program rest
      else invitation ++ reply.shown

/-- A whole conversation with a fresh program. -/
def run (input : ByteArray) : Transcript := { stdout := answer {} (lines input.toList) }

end FrameLang.Prompt
