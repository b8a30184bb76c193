import FrameLang.Scope

/-!
Evaluation of trees in a context.

A step of evaluation is written once, over any evaluator for the trees below the node and for the
bodies of the called functions. Iterating it under a recursion budget gives the evaluator; the
budget that `evaluate` takes is computed from the remaining call depth and the heights of the trees
at hand.
-/

set_option autoImplicit false

namespace FrameLang

/-- A function together with the arguments of one call. -/
structure ArmedCall where
  function : Function
  arguments : List Value
  span : Span

/-- Pairs a function with arguments of the right number. -/
def Function.arm (function : Function) (arguments : List Value) (span : Span) :
    Except Error ArmedCall :=
  if arguments.length = function.arity then .ok ⟨function, arguments, span⟩
  else .error ⟨.argumentCount function.name.text arguments.length function.arity, span⟩

/-- A lambda binds its parameters in the topmost frame, any other function in a new one. Both count
as one call. -/
def ArmedCall.evaluateWith (evaluate : Expr → Action Value) (call : ArmedCall) : Action Value := do
  Action.emit (.callingFunction call.function (← Action.current).callDepth call.span)
  let body := (Scope.arguments call.function.parameters call.arguments).around
    (evaluate call.function.body)
  (Scope.call call.span).around
    (if call.function.isLambda then body else (Scope.frame call.span).around body)

def Condition.evaluateWith (evaluate : Expr → Action Value) : Condition → Action Bool
  | .truthy operand _ => do
    let value ← evaluate operand
    return value.isTruthy
  | .comparison op left right _ => do
    let leftValue ← evaluate left
    let rightValue ← evaluate right
    return op.holds leftValue rightValue

/-- From left to right, up to the first failure. -/
def evaluateEach (evaluate : Expr → Action Value) : List Expr → Action (List Value)
  | [] => return []
  | argument :: rest => do
    let value ← evaluate argument
    let values ← evaluateEach evaluate rest
    return value :: values

/-- One step of evaluation. A call is resolved before its arguments are evaluated, so an unknown
function is reported first. -/
def Expr.evaluateWith (evaluate : Expr → Action Value) : Expr → Action Value
  | .literal value => return value
  | .var name => Context.lookupVariable name
  | .additive op left right span => do
    let leftValue ← evaluate left
    let rightValue ← evaluate right
    return ⟨op.apply leftValue rightValue, span⟩
  | .letIn name value body _ => do
    let bound ← evaluate value
    (Scope.var name bound).around (evaluate body)
  | .lambda function usage _ => (Scope.function function).around (evaluate usage)
  | .call name arguments span => do
    let function ← Context.lookupFunction name arguments.length
    let values ← evaluateEach evaluate arguments
    let call ← Action.ofExcept (function.arm values span)
    call.evaluateWith evaluate
  | .ifThenElse condition whenTrue whenFalse _ => do
    if ← condition.evaluateWith evaluate then evaluate whenTrue else evaluate whenFalse

/-- Evaluation of trees whose nodes and calls nest less deep than the budget. -/
def evaluateWithin : Nat → Expr → Action Value
  | 0, expr => Action.fail ⟨.budgetExhausted, expr.span⟩
  | budget + 1, expr => expr.evaluateWith (evaluateWithin budget)

/-- A budget that suffices for a tree of the given height: every remaining call level can add at most
one body. -/
def Context.budget (context : Context) (height : Nat) : Nat :=
  (context.limit - context.callDepth + 1) * max height context.bodyHeight

def Expr.evaluate (expr : Expr) : Action Value := fun context =>
  evaluateWithin (context.budget expr.height) expr context

def Condition.evaluate (condition : Condition) : Action Bool := fun context =>
  condition.evaluateWith (evaluateWithin (context.budget condition.height)) context

def ArmedCall.evaluate (call : ArmedCall) : Action Value := fun context =>
  call.evaluateWith (evaluateWithin (context.budget call.function.height)) context

end FrameLang
