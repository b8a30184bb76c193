import FrameLang.Action

/-!
Elementary actions on a context: pushing and popping frames, and binding, unbinding and looking up
names. All but the look-ups touch the topmost frame only, and a name is bound at most once per frame.
-/

set_option autoImplicit false

namespace FrameLang.Context

def depthExceeded (context : Context) (span : Span) : Error :=
  ⟨.depthExceeded context.limit, span⟩

/-- Fails if the frames already reach the limit. -/
def pushFrame (span : Span) : Action Unit := fun context =>
  if context.limit ≤ context.frameDepth then Action.fail (context.depthExceeded span) context
  else
    { result := .ok ()
      context := { context with upper := {} :: context.upper }
      events := [.pushedFrame (context.frameDepth + 1)] }

/-- The base frame stays. -/
def popFrame : Action Unit := fun context =>
  match context.upper with
  | [] => Action.fail ⟨.baseFramePopped, Span.empty⟩ context
  | _ :: lower =>
    { result := .ok ()
      context := { context with upper := lower }
      events := [.poppedFrame (lower.length + 1)] }

def bindVariable (name : Name) (value : Value) : Action Unit := fun context =>
  match context.current.vars.find? name.text with
  | some _ => Action.fail ⟨.variableBound name.text, name.span⟩ context
  | none =>
    { result := .ok ()
      context := context.mapCurrent fun frame =>
        { frame with vars := frame.vars.insert name.text value }
      events := [.boundVariable name.text value] }

def unbindVariable (name : Name) : Action Value := fun context =>
  match context.current.vars.find? name.text with
  | none => Action.fail ⟨.variableNotBound name.text, name.span⟩ context
  | some value =>
    { result := .ok value
      context := context.mapCurrent fun frame =>
        { frame with vars := frame.vars.erase name.text } }

def bindFunction (function : Function) : Action Unit := fun context =>
  match context.current.functions.find? function.signature with
  | some _ =>
    Action.fail ⟨.functionDefined function.name.text function.arity, function.span⟩ context
  | none =>
    { result := .ok ()
      context := context.mapCurrent fun frame =>
        { frame with functions := frame.functions.insert function.signature function }
      events := [.registeredFunction function] }

/-- Yields the function that was defined under the signature of the given one. -/
def unbindFunction (function : Function) : Action Function := fun context =>
  match context.current.functions.find? function.signature with
  | none =>
    Action.fail ⟨.functionNotDefined function.name.text function.arity, function.span⟩ context
  | some found =>
    { result := .ok found
      context := context.mapCurrent fun frame =>
        { frame with functions := frame.functions.erase function.signature } }

def lookupVariable (name : Name) : Action Value := fun context =>
  match context.findVariable? name.text with
  | some value => Action.done value context
  | none => Action.fail ⟨.unknownVariable name.text, name.span⟩ context

def lookupFunction (name : Name) (arity : Nat) : Action Function := fun context =>
  match context.findFunction? ⟨name.text, arity⟩ with
  | some function => Action.done function context
  | none => Action.fail ⟨.unknownFunction name.text arity, name.span⟩ context

/-- Unbinds every name, going on after a failure. The first failure is returned. -/
def unbindEach : List Name → Action Unit
  | [] => Action.done ()
  | name :: rest => do
    let first ← Action.attempt (unbindVariable name)
    let others ← Action.attempt (unbindEach rest)
    match first with
    | .ok _ => Action.ofExcept others
    | .error error => Action.fail error

/-- Binds every name to its value, in order. A failure unbinds the names bound before it, the newest
first; `bound` holds them. -/
def bindEach (bound : List Name) : List (Name × Value) → Action Unit
  | [] => Action.done ()
  | (name, value) :: rest => do
    match ← Action.attempt (bindVariable name value) with
    | .ok () => bindEach (name :: bound) rest
    | .error error =>
      let unwound ← Action.attempt (unbindEach bound)
      Action.release (.error error) unwound

end FrameLang.Context
