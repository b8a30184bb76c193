import FrameLang.Evaluation
import FrameLang.Parser

/-!
Programs: declarations that are processed one after another in one context. Each declaration is
processed once and in order, also if it fails.
-/

set_option autoImplicit false

namespace FrameLang

/-- Registers a function or evaluates an expression. Only an expression yields a value. A function
that was read from inside an expression cannot be registered. -/
def Declaration.process : Declaration → Action (Option Value)
  | .function definition =>
    if definition.isLambda then
      Action.fail ⟨.lambdaAtTopLevel definition.name.text, definition.span⟩
    else do
      Context.bindFunction definition
      return none
  | .expression expr => do
    let value ← expr.evaluate
    return some value

structure Program where
  declarations : List Declaration := []
  processed : Nat := 0
  context : Context := {}

namespace Program

/-- The number of declarations that wait to be processed. -/
def pending (program : Program) : Nat := program.declarations.length - program.processed

def extend (program : Program) (declarations : List Declaration) : Program :=
  { program with declarations := program.declarations ++ declarations }

/-- Some progress of a program: what came of it, the program afterwards, and the events. -/
structure Progress (α : Type) where
  result : α
  program : Program
  events : List Event := []

/-- What came of one declaration. -/
abbrev Answer : Type := Except Error (Option Value)

/-- Processes the next declaration, if there is one. -/
def step (program : Program) : Option (Progress Answer) :=
  match program.declarations[program.processed]? with
  | none => none
  | some declaration =>
    let outcome := declaration.process program.context
    some
      { result := outcome.result
        program := { program with processed := program.processed + 1, context := outcome.context }
        events := outcome.events }

/-- Processes declarations until none is left, but at most `count`. -/
def drainWithin : Nat → Program → Progress (List Answer)
  | 0, program => { result := [], program }
  | count + 1, program =>
    match program.step with
    | none => { result := [], program }
    | some first =>
      let more := drainWithin count first.program
      { result := first.result :: more.result
        program := more.program
        events := first.events ++ more.events }

/-- Processes all pending declarations, failing ones included. -/
def drain (program : Program) : Progress (List Answer) := drainWithin program.pending program

/-- Processes declarations up to and including the first that fails, but at most `count`. -/
def runWithin : Nat → Program → Progress (Except Error Unit)
  | 0, program => { result := .ok (), program }
  | count + 1, program =>
    match program.step with
    | none => { result := .ok (), program }
    | some first =>
      match first.result with
      | .error error => { first with result := .error error }
      | .ok _ =>
        let more := runWithin count first.program
        { more with events := first.events ++ more.events }

/-- Processes the pending declarations up to and including the first that fails. -/
def run (program : Program) : Progress (Except Error Unit) :=
  let progress := runWithin program.pending program
  { progress with events := .runningProgram program.pending :: progress.events }

/-- A program whose context has the given limits. -/
def ofConfig (config : Config) (declarations : List Declaration := []) : Program :=
  { declarations, context := { config } }

end Program

end FrameLang
