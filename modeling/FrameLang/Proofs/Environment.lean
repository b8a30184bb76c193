import FrameLang.Context
import FrameLang.Error

/-!
Evaluation by environments. The rules below pass an environment that is only ever extended: nothing
is unbound, popped or counted down, and an expression is evaluated in the environment that its node
was given. They refer neither to the evaluator nor to the tables that a context keeps.
-/

set_option autoImplicit false

namespace FrameLang

/-- The bindings of one frame. -/
structure Layer where
  vars : String → Option Value
  functions : Signature → Option Function

def Layer.empty : Layer := ⟨fun _ => none, fun _ => none⟩

/-- The layers in which names are looked up, the number of calls in progress and its limit. -/
structure Environment where
  top : Layer
  lower : List Layer
  calls : Nat
  limit : Nat

namespace Environment

/-- From the topmost layer down to the base. -/
def value? (environment : Environment) (name : String) : Option Value :=
  (environment.top :: environment.lower).findSome? fun layer => layer.vars name

def function? (environment : Environment) (signature : Signature) : Option Function :=
  (environment.top :: environment.lower).findSome? fun layer => layer.functions signature

def depth (environment : Environment) : Nat := environment.lower.length + 1

def withVariable (environment : Environment) (name : String) (value : Value) : Environment :=
  { environment with
    top := { environment.top with
      vars := fun other => if other = name then some value else environment.top.vars other } }

def withFunction (environment : Environment) (function : Function) : Environment :=
  { environment with
    top := { environment.top with
      functions := fun other =>
        if other = function.signature then some function else environment.top.functions other } }

def counted (environment : Environment) : Environment :=
  { environment with calls := environment.calls + 1 }

def pushed (environment : Environment) : Environment :=
  { environment with top := .empty, lower := environment.top :: environment.lower }

section LookUp

variable (environment : Environment)

theorem value?_eq (name : String) :
    environment.value? name =
      (environment.top.vars name).or (environment.lower.findSome? fun layer => layer.vars name) := by
  rw [value?, List.findSome?_cons]
  cases environment.top.vars name <;> rfl

theorem function?_eq (signature : Signature) :
    environment.function? signature =
      (environment.top.functions signature).or
        (environment.lower.findSome? fun layer => layer.functions signature) := by
  rw [function?, List.findSome?_cons]
  cases environment.top.functions signature <;> rfl

theorem value?_withVariable (name : String) (value : Value) (other : String) :
    (environment.withVariable name value).value? other =
      if other = name then some value else environment.value? other := by
  rw [value?_eq, value?_eq]
  simp only [withVariable]
  split <;> rfl

theorem function?_withFunction (function : Function) (other : Signature) :
    (environment.withFunction function).function? other =
      if other = function.signature then some function else environment.function? other := by
  rw [function?_eq, function?_eq]
  simp only [withFunction]
  split <;> rfl

end LookUp

/-- From left to right, up to the first parameter whose name the topmost layer already holds. -/
def withParameters (environment : Environment) : List (Name × Value) → Except Error Environment
  | [] => .ok environment
  | (name, value) :: rest =>
    match environment.top.vars name.text with
    | some _ => .error ⟨.variableBound name.text, name.span⟩
    | none => (environment.withVariable name.text value).withParameters rest

/-- The environment of a called body. The number of calls is compared with the limit first, for an
ordinary function the number of layers next, and then the parameters are bound: those of a lambda in
the topmost layer of the caller, all others in a new one. -/
def callee (environment : Environment) (function : Function) (values : List Value)
    (span : Span) : Except Error Environment :=
  let parameters := function.parameters.zip values
  if environment.limit ≤ environment.calls + 1 then
    .error ⟨.depthExceeded environment.limit, span⟩
  else if function.isLambda then environment.counted.withParameters parameters
  else if environment.limit ≤ environment.depth then
    .error ⟨.depthExceeded environment.limit, span⟩
  else environment.counted.pushed.withParameters parameters

end Environment

mutual

/-- The expression evaluates to the result, a value or the error that ended it. -/
inductive Evaluates : Environment → Expr → Except Error Value → Prop where
  | literal {environment value} : Evaluates environment (.literal value) (.ok value)
  | var {environment name value} :
      environment.value? name.text = some value → Evaluates environment (.var name) (.ok value)
  | varUnknown {environment name} :
      environment.value? name.text = none →
      Evaluates environment (.var name) (.error ⟨.unknownVariable name.text, name.span⟩)
  | additive {environment op left right span leftValue rightValue} :
      Evaluates environment left (.ok leftValue) → Evaluates environment right (.ok rightValue) →
      Evaluates environment (.additive op left right span)
        (.ok ⟨op.apply leftValue rightValue, span⟩)
  | additiveLeft {environment op left right span error} :
      Evaluates environment left (.error error) →
      Evaluates environment (.additive op left right span) (.error error)
  | additiveRight {environment op left right span leftValue error} :
      Evaluates environment left (.ok leftValue) → Evaluates environment right (.error error) →
      Evaluates environment (.additive op left right span) (.error error)
  | letValue {environment name value body span error} :
      Evaluates environment value (.error error) →
      Evaluates environment (.letIn name value body span) (.error error)
  | letTaken {environment name value body span bound old} :
      Evaluates environment value (.ok bound) → environment.top.vars name.text = some old →
      Evaluates environment (.letIn name value body span)
        (.error ⟨.variableBound name.text, name.span⟩)
  | letBody {environment name value body span bound result} :
      Evaluates environment value (.ok bound) → environment.top.vars name.text = none →
      Evaluates (environment.withVariable name.text bound) body result →
      Evaluates environment (.letIn name value body span) result
  | lambdaTaken {environment function usage span old} :
      environment.top.functions function.signature = some old →
      Evaluates environment (.lambda function usage span)
        (.error ⟨.functionDefined function.name.text function.arity, function.span⟩)
  | lambdaUsage {environment function usage span result} :
      environment.top.functions function.signature = none →
      Evaluates (environment.withFunction function) usage result →
      Evaluates environment (.lambda function usage span) result
  | callUnknown {environment name arguments span} :
      environment.function? ⟨name.text, arguments.length⟩ = none →
      Evaluates environment (.call name arguments span)
        (.error ⟨.unknownFunction name.text arguments.length, name.span⟩)
  | callArgument {environment name arguments span function error} :
      environment.function? ⟨name.text, arguments.length⟩ = some function →
      EvaluatesEach environment arguments (.error error) →
      Evaluates environment (.call name arguments span) (.error error)
  /-- Only a layer that holds a function under a foreign signature lets this happen. -/
  | callMismatch {environment name arguments span function values} :
      environment.function? ⟨name.text, arguments.length⟩ = some function →
      EvaluatesEach environment arguments (.ok values) → values.length ≠ function.arity →
      Evaluates environment (.call name arguments span)
        (.error ⟨.argumentCount function.name.text values.length function.arity, span⟩)
  | callRefused {environment name arguments span function values error} :
      environment.function? ⟨name.text, arguments.length⟩ = some function →
      EvaluatesEach environment arguments (.ok values) → values.length = function.arity →
      environment.callee function values span = .error error →
      Evaluates environment (.call name arguments span) (.error error)
  | callBody {environment name arguments span function values inner result} :
      environment.function? ⟨name.text, arguments.length⟩ = some function →
      EvaluatesEach environment arguments (.ok values) → values.length = function.arity →
      environment.callee function values span = .ok inner → Evaluates inner function.body result →
      Evaluates environment (.call name arguments span) result
  | ifCondition {environment condition whenTrue whenFalse span error} :
      Tests environment condition (.error error) →
      Evaluates environment (.ifThenElse condition whenTrue whenFalse span) (.error error)
  | ifTrue {environment condition whenTrue whenFalse span result} :
      Tests environment condition (.ok true) → Evaluates environment whenTrue result →
      Evaluates environment (.ifThenElse condition whenTrue whenFalse span) result
  | ifFalse {environment condition whenTrue whenFalse span result} :
      Tests environment condition (.ok false) → Evaluates environment whenFalse result →
      Evaluates environment (.ifThenElse condition whenTrue whenFalse span) result

/-- The arguments evaluate to their values from left to right, or to the first error. -/
inductive EvaluatesEach : Environment → List Expr → Except Error (List Value) → Prop where
  | nil {environment} : EvaluatesEach environment [] (.ok [])
  | cons {environment argument rest value values} :
      Evaluates environment argument (.ok value) → EvaluatesEach environment rest (.ok values) →
      EvaluatesEach environment (argument :: rest) (.ok (value :: values))
  | head {environment argument rest error} :
      Evaluates environment argument (.error error) →
      EvaluatesEach environment (argument :: rest) (.error error)
  | tail {environment argument rest value error} :
      Evaluates environment argument (.ok value) → EvaluatesEach environment rest (.error error) →
      EvaluatesEach environment (argument :: rest) (.error error)

inductive Tests : Environment → Condition → Except Error Bool → Prop where
  | truthy {environment operand span value} :
      Evaluates environment operand (.ok value) →
      Tests environment (.truthy operand span) (.ok value.isTruthy)
  | truthyOperand {environment operand span error} :
      Evaluates environment operand (.error error) →
      Tests environment (.truthy operand span) (.error error)
  | comparison {environment op left right span leftValue rightValue} :
      Evaluates environment left (.ok leftValue) → Evaluates environment right (.ok rightValue) →
      Tests environment (.comparison op left right span) (.ok (op.holds leftValue rightValue))
  | comparisonLeft {environment op left right span error} :
      Evaluates environment left (.error error) →
      Tests environment (.comparison op left right span) (.error error)
  | comparisonRight {environment op left right span leftValue error} :
      Evaluates environment left (.ok leftValue) → Evaluates environment right (.error error) →
      Tests environment (.comparison op left right span) (.error error)

end

end FrameLang
