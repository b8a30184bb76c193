import FrameLang.Span

/-!
Failures of reading and of evaluation. An error is a structured cause together with the place it
points at; its kind and its wording are functions of the cause.
-/

set_option autoImplicit false

namespace FrameLang

/-- The classes of failure that a host can tell apart. All but `internalInvariant` are the fault of
the evaluated program. -/
inductive ErrorKind where
  | syntaxError
  | shadowing
  | unboundVariable
  | undefinedFunction
  | unbindMissing
  | arityMismatch
  | recursionLimit
  | malformedProgram
  | internalInvariant
deriving DecidableEq, Repr

namespace ErrorKind

def all : List ErrorKind :=
  [.syntaxError, .shadowing, .unboundVariable, .undefinedFunction, .unbindMissing, .arityMismatch,
    .recursionLimit, .malformedProgram, .internalInvariant]

def name : ErrorKind → String
  | syntaxError => "Syntax"
  | shadowing => "Shadowing"
  | unboundVariable => "UnboundVariable"
  | undefinedFunction => "UndefinedFunction"
  | unbindMissing => "UnbindMissing"
  | arityMismatch => "ArityMismatch"
  | recursionLimit => "RecursionLimit"
  | malformedProgram => "MalformedProgram"
  | internalInvariant => "InternalInvariant"

/-- The kind with exactly this name. -/
def ofName? (text : String) : Option ErrorKind := all.find? (·.name == text)

end ErrorKind

/-- What the grammar asks for at a token that cannot stand there. -/
inductive Expectation where
  | letWord
  | identifier
  | assign
  | inWord
  | expression
  | closing
  | ifWord
  | thenWord
  | elseWord
  | separator
deriving DecidableEq, Repr

def Expectation.description : Expectation → String
  | letWord => "'let'"
  | identifier => "an identifier"
  | assign => "'='"
  | inWord => "'in'"
  | expression => "an expression"
  | closing => "')'"
  | ifWord => "'if'"
  | thenWord => "'then'"
  | elseWord => "'else'"
  | separator => "';' between declarations"

/-- Why reading or evaluation failed. -/
inductive Cause where
  /-- No token starts with this character. -/
  | unrecognized (character : Char)
  /-- A token cannot stand where it does; there is none at the end of the input. -/
  | unexpected (wanted : Expectation) (found : Option String)
  /-- A top-level binding has neither parameters nor a body. -/
  | bindingWithoutBody (name : String)
  /-- A function that lives inside one expression was declared at the top level. -/
  | lambdaAtTopLevel (name : String)
  | variableBound (name : String)
  | functionDefined (name : String) (arity : Nat)
  | variableNotBound (name : String)
  | functionNotDefined (name : String) (arity : Nat)
  | unknownVariable (name : String)
  | unknownFunction (name : String) (arity : Nat)
  | argumentCount (name : String) (given expected : Nat)
  | depthExceeded (limit : Nat)
  | baseFramePopped
  | parameterCount (arguments parameters : Nat)
  | unbalancedFrames (found expected : Nat)
  /-- The evaluator was given too small a recursion budget. -/
  | budgetExhausted
  /-- A failure that the host states in its own words. -/
  | stated (kind : ErrorKind) (reason : String)
deriving DecidableEq, Repr

namespace Cause

def kind : Cause → ErrorKind
  | unrecognized _ | unexpected _ _ => .syntaxError
  | bindingWithoutBody _ | lambdaAtTopLevel _ => .malformedProgram
  | variableBound _ | functionDefined _ _ => .shadowing
  | variableNotBound _ | functionNotDefined _ _ => .unbindMissing
  | unknownVariable _ => .unboundVariable
  | unknownFunction _ _ => .undefinedFunction
  | argumentCount _ _ _ => .arityMismatch
  | depthExceeded _ => .recursionLimit
  | baseFramePopped | parameterCount _ _ | unbalancedFrames _ _ | budgetExhausted =>
    .internalInvariant
  | stated kind _ => kind

def reason : Cause → String
  | unrecognized character => "unrecognized token '" ++ toString character ++ "'"
  | unexpected wanted (some found) =>
    "expected " ++ wanted.description ++ ", found '" ++ found ++ "'"
  | unexpected wanted none => "expected " ++ wanted.description ++ ", found end of input"
  | bindingWithoutBody name =>
    "top-level binding '" ++ name ++ "' must declare parameters or have an 'in' body"
  | lambdaAtTopLevel name => "lambda '" ++ name ++ "' cannot be declared at the top level"
  | variableBound name =>
    "variable '" ++ name ++ "' is already bound in this frame, and name shadowing is not supported"
  | functionDefined name arity =>
    "function '" ++ name ++ "' with " ++ toString arity ++
      " arguments is already defined, and name shadowing is not supported"
  | variableNotBound name =>
    "tried to unbind variable '" ++ name ++ "' which isn't bound in the current frame"
  | functionNotDefined name arity =>
    "tried to unbind function '" ++ name ++ "' with " ++ toString arity ++
      " arguments which isn't defined in the current frame"
  | unknownVariable name => "no variable with name '" ++ name ++ "'"
  | unknownFunction name arity =>
    "no such function '" ++ name ++ "' with " ++ toString arity ++ " arguments"
  | argumentCount name given expected =>
    "calling function '" ++ name ++ "' with " ++ toString given ++ " arguments, but it takes " ++
      toString expected
  | depthExceeded limit =>
    "call depth exceeded the limit of " ++ toString limit ++ " frames"
  | baseFramePopped => "tried to pop the base frame"
  | parameterCount arguments parameters =>
    "binding " ++ toString arguments ++ " arguments to " ++ toString parameters ++ " parameters"
  | unbalancedFrames found expected =>
    "frame stack is at depth " ++ toString found ++ " after a call entered at depth " ++
      toString expected
  | budgetExhausted => "recursion budget exhausted"
  | stated _ reason => reason

end Cause

structure Error where
  cause : Cause
  span : Span
deriving DecidableEq, Repr

namespace Error

def kind (error : Error) : ErrorKind := error.cause.kind

def reason (error : Error) : String := error.cause.reason

/-- A broken contract of the evaluator itself. The host should stop. -/
def isFatal (error : Error) : Bool := error.kind == .internalInvariant

/-- The kind and the reason, on one line if the reason has one line. -/
def summary (error : Error) : String := error.kind.name ++ ": " ++ error.reason

/-- A diagnostic that quotes the place it points at, if there is one. -/
def report (error : Error) : String :=
  let headline := "Interpreter Error (" ++ error.kind.name ++ "): " ++ error.reason ++ "."
  if error.span.isEmpty then headline
  else headline ++ "\nnote: encountered error here (" ++ error.span.range ++ ")\n" ++ error.span.text

end Error

/-!
Sequences of steps that may fail.
-/

theorem except_ok_bind {α β : Type} (value : α) (next : α → Except Error β) :
    (Except.ok value >>= next) = next value := rfl

theorem except_bind_eq_ok_iff {ε α β : Type} {first : Except ε α} {next : α → Except ε β}
    {result : β} :
    (first >>= next) = .ok result ↔ ∃ value, first = .ok value ∧ next value = .ok result := by
  cases first <;> simp [bind, Except.bind]

theorem except_bind_eq_error_iff {α β : Type} {first : Except Error α} {next : α → Except Error β}
    {error : Error} :
    (first >>= next) = .error error ↔
      first = .error error ∨ ∃ value, first = .ok value ∧ next value = .error error := by
  cases first <;> simp [bind, Except.bind]

end FrameLang
