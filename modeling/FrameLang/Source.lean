import FrameLang.Span

/-!
Source texts as rows of characters, addressed by byte offsets into their UTF-8 form.
-/

set_option autoImplicit false

namespace FrameLang.Source

/-- The number of bytes that the characters take. -/
def byteLength : List Char → Nat
  | [] => 0
  | c :: chars => c.utf8Size + byteLength chars

@[simp] theorem byteLength_append (first second : List Char) :
    byteLength (first ++ second) = byteLength first + byteLength second := by
  induction first with
  | nil => simp [byteLength]
  | cons c chars ih => simp [byteLength, ih, Nat.add_assoc]

/-- The characters from the given byte offset on. -/
def dropBytes : Nat → List Char → List Char
  | _, [] => []
  | count, c :: chars => if count = 0 then c :: chars else dropBytes (count - c.utf8Size) chars

/-- The characters before the given byte offset. -/
def takeBytes : Nat → List Char → List Char
  | _, [] => []
  | count, c :: chars => if count = 0 then [] else c :: takeBytes (count - c.utf8Size) chars

/-- The part of a text between two byte offsets. -/
def slice (source : List Char) (start stop : Nat) : Span :=
  ⟨start, stop, String.ofList (takeBytes (stop - start) (dropBytes start source))⟩

/-- The place just behind the last character. -/
def endSpan (source : List Char) : Span := ⟨byteLength source, byteLength source, ""⟩

end FrameLang.Source
