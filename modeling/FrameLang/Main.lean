import FrameLang.CommandLine

/-!
The executable around the command line.
-/

set_option autoImplicit false

namespace FrameLang

/-- The content of a file, if it can be read. -/
def readFile? (name : String) : IO (Option ByteArray) := do
  try
    return some (← IO.FS.readBinFile name)
  catch _ =>
    return none

end FrameLang

def main (arguments : List String) : IO UInt32 := do
  let contents ← (arguments.take 2).mapM fun name => do
    return (name, ← FrameLang.readFile? name)
  let readFile := fun name => (contents.lookup name).join
  let transcript := FrameLang.CommandLine.run readFile arguments
  IO.print transcript.stdout
  IO.eprint transcript.stderr
  return UInt32.ofNat transcript.code
