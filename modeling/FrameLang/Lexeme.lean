import FrameLang.Error
import FrameLang.Source
import FrameLang.Token

/-!
Lexemes: the tokens of a source text with their places. Whitespace and comments stand between
lexemes and are dropped. A text has no lexemes at all if anywhere no token starts.
-/

set_option autoImplicit false

namespace FrameLang

structure Lexeme where
  token : Token
  span : Span
deriving DecidableEq

namespace Lexeme

def isWhitespace (c : Char) : Bool :=
  c == ' ' || c == '\t' || c == '\r' || c == '\n' || c == '\x0c'

/-- Drops whitespace and comments, keeping count of the byte offset. A comment runs from a number
sign up to the end of its line; `comment` says whether the text starts inside one. -/
def skipLayout : Bool → Nat → List Char → Nat × List Char
  | _, offset, [] => (offset, [])
  | true, offset, c :: chars => skipLayout (c != '\n') (offset + c.utf8Size) chars
  | false, offset, c :: chars =>
    if isWhitespace c then skipLayout false (offset + c.utf8Size) chars
    else if c = '#' then skipLayout true (offset + c.utf8Size) chars
    else (offset, c :: chars)

theorem skipLayout_length_le (comment : Bool) (offset : Nat) (chars : List Char) :
    (skipLayout comment offset chars).2.length ≤ chars.length := by
  induction chars generalizing comment offset with
  | nil => cases comment <;> simp [skipLayout]
  | cons c chars ih =>
      cases comment with
      | true => exact Nat.le_succ_of_le (ih _ _)
      | false =>
          rw [skipLayout]
          split
          · exact Nat.le_succ_of_le (ih _ _)
          · split
            · exact Nat.le_succ_of_le (ih _ _)
            · exact Nat.le_refl _

/-- The lexemes of a text that starts at the given byte offset. A character that starts no token is
the error. -/
def ofCharsFrom (offset : Nat) (chars : List Char) : Except Error (List Lexeme) :=
  match _skipped : skipLayout false offset chars with
  | (_, []) => .ok []
  | (start, c :: rest) =>
    match Token.scan? (c :: rest) with
    | none =>
      .error ⟨.unrecognized c, ⟨start, start + c.utf8Size, String.ofList [c]⟩⟩
    | some (token, length) =>
      let text := (c :: rest).take length
      let stop := start + Source.byteLength text
      match ofCharsFrom stop (rest.drop (length - 1)) with
      | .ok lexemes => .ok (⟨token, ⟨start, stop, String.ofList text⟩⟩ :: lexemes)
      | .error error => .error error
termination_by chars.length
decreasing_by
  have shorter := skipLayout_length_le false offset chars
  rw [_skipped] at shorter
  simp only [List.length_cons, List.length_drop] at shorter ⊢
  omega

/-- The lexemes of a whole source text. -/
def ofSource (source : List Char) : Except Error (List Lexeme) := ofCharsFrom 0 source

end Lexeme

end FrameLang
