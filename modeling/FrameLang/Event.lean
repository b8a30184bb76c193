import FrameLang.Error
import FrameLang.Expr

/-!
What an evaluation reports about its progress. Events are a record of what happened, in order; they
influence nothing.
-/

set_option autoImplicit false

namespace FrameLang

inductive Event where
  /-- A frame was pushed; the depth counts it. -/
  | pushedFrame (depth : Nat)
  /-- A frame was popped; the depth no longer counts it. -/
  | poppedFrame (depth : Nat)
  | boundVariable (name : String) (value : Value)
  | registeredFunction (function : Function)
  /-- A call is attempted while `depth` calls are in progress. It may still be refused. -/
  | callingFunction (function : Function) (depth : Nat) (span : Span)
  | runningProgram (pending : Nat)
  /-- Two failures met and only `kept` is returned. -/
  | releaseFailed (kept secondary : Error)

inductive Severity where
  | trace
  | debug
  | warn
deriving DecidableEq, Repr

def Severity.label : Severity → String
  | trace => "TRACE"
  | debug => "DEBUG"
  | warn => "WARN"

namespace Event

def severity : Event → Severity
  | pushedFrame _ | poppedFrame _ | boundVariable _ _ => .trace
  | registeredFunction _ | callingFunction _ _ _ | runningProgram _ => .debug
  | releaseFailed _ _ => .warn

def message : Event → String
  | pushedFrame _ => "pushed frame"
  | poppedFrame _ => "popped frame"
  | boundVariable _ _ => "bound variable"
  | registeredFunction _ => "registered function"
  | callingFunction _ _ _ => "calling function"
  | runningProgram _ => "running program"
  | releaseFailed kept _ => "release failed while unwinding '" ++ kept.summary ++ "'"

/-- The details of an event under their names. The span of a call is not among them. -/
def fields : Event → List (String × String)
  | pushedFrame depth | poppedFrame depth => [("depth", toString depth)]
  | boundVariable name value => [("name", name), ("value", value.text)]
  | registeredFunction function =>
    [("function", function.heading), ("lambda", if function.isLambda then "true" else "false")]
  | callingFunction function depth _ =>
    [("function", function.heading), ("depth", toString depth)]
  | runningProgram pending => [("pending", toString pending)]
  | releaseFailed _ secondary => [("secondary", secondary.summary)]

/-- One line of a log: severity, message and details. -/
def text (event : Event) : String :=
  " ".intercalate
    (event.severity.label :: event.message ::
      event.fields.map (fun (key, value) => key ++ "=" ++ value))

end Event

end FrameLang
