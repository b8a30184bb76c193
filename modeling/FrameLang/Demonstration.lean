import FrameLang.Program
import FrameLang.Transcript

/-!
A small program that shows how names resolve. A callee sees the variables of the callers that are
still active, and no others.
-/

set_option autoImplicit false

namespace FrameLang.Demonstration

def source : String := "
        let peek () = secret;
        let reveal secret = peek ();
        let sum_to n = if n == 0 then 0 else n + sum_to (n - 1);
        reveal 42;
        peek ();
        sum_to 10;
        let add a b = a + b in add 4 1
    "

def describe : Program.Answer → String
  | .ok none => "function"
  | .ok (some value) => value.text
  | .error error => error.report

/-- Each declaration with its number and what came of it. -/
def listing (answers : List Program.Answer) : String :=
  String.join (answers.zipIdx.map fun (answer, index) =>
    toString index ++ ": " ++ describe answer ++ "\n")

def run : Transcript :=
  match parse source with
  | .error error => .failing error.summary
  | .ok declarations => { stdout := listing (Program.ofConfig {} declarations).drain.result }

end FrameLang.Demonstration
