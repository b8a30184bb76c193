import FrameLang.Config.Json
import FrameLang.Program
import FrameLang.Transcript

/-!
The command line: it evaluates the program in one file, with limits from an optional second file, and
shows the values of its expressions. Files are given as a look-up that fails for those that cannot be
read. A file that cannot be used is named in the message about it. What the operating system or the
reader of the file has to say about the cause, which a host may show below that message, is left out.
-/

set_option autoImplicit false

namespace FrameLang.CommandLine

/-- Shows what came of the declarations. Only a fatal error ends the run early. -/
def present : List Program.Answer → Transcript
  | [] => {}
  | .ok none :: rest => present rest
  | .ok (some value) :: rest => (present rest).printing value.text
  | .error error :: rest =>
    if error.isFatal then .failing error.summary else (present rest).complaining error.report

/-- Evaluates a program text. Nothing is evaluated if the text cannot be read as a program. -/
def evaluate (config : Config) (source : String) : Transcript :=
  match parse source with
  | .error error => Transcript.complaining error.report {}
  | .ok declarations => present (Program.ofConfig config declarations).drain.result

/-- The limits from the file of that name, or the default ones without a name. -/
def loadConfig? (readFile : String → Option ByteArray) : Option String → Option Config
  | none => some {}
  | some name => (readFile name).bind fun bytes => (Config.ofJson bytes.toList).toOption

/-- Runs the command with its arguments: the program and possibly the configuration. Further ones are
ignored, and the configuration is looked at first. A run that fails over a file shows the message
alone, without the cause. -/
def run (readFile : String → Option ByteArray) : List String → Transcript
  | [] => .failing "usage: boi <program.boi> [config.json]"
  | programName :: rest =>
    match loadConfig? readFile rest.head? with
    | none => .failing ("failed to load config from " ++ rest.headD "")
    | some config =>
      match (readFile programName).bind String.fromUTF8? with
      | none => .failing ("failed to read " ++ programName)
      | some source => evaluate config source

end FrameLang.CommandLine
