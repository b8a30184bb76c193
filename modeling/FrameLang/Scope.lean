import FrameLang.Context.Binding

/-!
Scopes: what is acquired before some work and released after it, however the work ends. The result of
the work and that of the release are joined into one, and where both have failed one of the two errors
is returned and the other is only reported.
-/

set_option autoImplicit false

namespace FrameLang

inductive Scope where
  /-- One call in progress, counted against the limit on the call depth. -/
  | call (span : Span)
  /-- A fresh topmost frame. -/
  | frame (span : Span)
  /-- A variable in the topmost frame. -/
  | var (name : Name) (value : Value)
  /-- Parameters with their values, all in the topmost frame. -/
  | arguments (parameters : List Name) (values : List Value)
  /-- A function in the topmost frame. -/
  | function (function : Function)

namespace Scope

/-- Acquires what the scope is about, or nothing at all if that fails. -/
def enter : Scope → Action Unit
  | call span => fun context =>
    if context.limit ≤ context.callDepth + 1 then Action.fail (context.depthExceeded span) context
    else { result := .ok (), context := { context with callDepth := context.callDepth + 1 } }
  | frame span => Context.pushFrame span
  | var name value => Context.bindVariable name value
  | arguments parameters values =>
    if parameters.length = values.length then Context.bindEach [] (parameters.zip values)
    else Action.fail ⟨.parameterCount values.length parameters.length, Span.empty⟩
  | function definition => Context.bindFunction definition

/-- Drops the topmost frames until at most `count` are left above the base. -/
def dropFramesAbove (count : Nat) (context : Context) : Context :=
  { context with upper := context.upper.drop (context.upper.length - count) }

/-- Releases what `enter` acquired and joins the result of the work with that. `outer` is the number
of frames above the base before the scope was entered. An error of the work is returned rather than one
of the release. One path has it the other way round: where the work inside a frame leaves the frame
stack at another depth than it found it at, the error about the depth is returned. -/
def leave {α : Type} (outer : Nat) (result : Except Error α) : Scope → Action α
  | call _ => do
    Action.modify fun context => { context with callDepth := context.callDepth - 1 }
    Action.ofExcept result
  | frame span => do
    let found := (← Action.current).frameDepth
    if found = outer + 2 then
      Action.release result (← Action.attempt Context.popFrame)
    else
      Action.modify (dropFramesAbove outer)
      -- The two results have changed places: an error of the work is lost here.
      Action.release (.error ⟨.unbalancedFrames found (outer + 2), span⟩) result
  | var name _ => do
    Action.release result (← Action.attempt (Context.unbindVariable name))
  | arguments parameters _ => do
    Action.release result (← Action.attempt (Context.unbindEach parameters.reverse))
  | function definition => do
    Action.release result (← Action.attempt (Context.unbindFunction definition))

/-- Runs some work inside the scope. -/
def around {α : Type} (scope : Scope) (work : Action α) : Action α := do
  let outer := (← Action.current).upper.length
  scope.enter
  let result ← Action.attempt work
  scope.leave outer result

end Scope

end FrameLang
