/-!
What a finished run of a command shows: its exit code and its two outputs.
-/

set_option autoImplicit false

namespace FrameLang

structure Transcript where
  code : Nat := 0
  stdout : String := ""
  stderr : String := ""
deriving DecidableEq, Repr

namespace Transcript

/-- A transcript whose standard output starts with one more line. -/
def printing (line : String) (rest : Transcript) : Transcript :=
  { rest with stdout := line ++ "\n" ++ rest.stdout }

/-- A transcript whose error output starts with one more line. A run with any such line fails. -/
def complaining (line : String) (rest : Transcript) : Transcript :=
  { rest with code := 1, stderr := line ++ "\n" ++ rest.stderr }

/-- A run that ends at once with a message. The causes below the message are left out. -/
def failing (message : String) : Transcript := complaining ("Error: " ++ message) {}

end Transcript

end FrameLang
