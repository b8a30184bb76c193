import FrameLang.Value

/-!
Trees of the language. Expressions yield a value and conditions a truth value, so a truth value can
never stand where a value is expected. Every node carries the span it was read from; trees that a
host builds without a source text carry the empty span.
-/

set_option autoImplicit false

namespace FrameLang

/-- An occurrence of a name. Names are resolved when they are evaluated. -/
structure Name where
  text : String
  span : Span
deriving DecidableEq

/-- A name that no source text contains. -/
def Name.bare (text : String) : Name := ⟨text, Span.empty⟩

inductive AdditiveOp where
  | add
  | sub
deriving DecidableEq, Repr

def AdditiveOp.apply : AdditiveOp → Value → Value → Float
  | add, left, right => left.number + right.number
  | sub, left, right => left.number - right.number

inductive Comparison where
  | greater
  | greaterEqual
  | less
  | lessEqual
  | equal
  | notEqual
deriving DecidableEq, Repr

/-- Comparisons of numbers as IEEE 754 defines them: with a value that is not a number only
`notEqual` holds. -/
def Comparison.holds : Comparison → Value → Value → Bool
  | greater, left, right => right.number < left.number
  | greaterEqual, left, right => right.number ≤ left.number
  | less, left, right => left.number < right.number
  | lessEqual, left, right => left.number ≤ right.number
  | equal, left, right => left.number == right.number
  | notEqual, left, right => left.number != right.number

mutual

inductive Expr where
  | literal (value : Value)
  | var (name : Name)
  | additive (op : AdditiveOp) (left right : Expr) (span : Span)
  | letIn (name : Name) (value body : Expr) (span : Span)
  /-- A function that exists while `usage` is evaluated. -/
  | lambda (function : Function) (usage : Expr) (span : Span)
  | call (name : Name) (arguments : List Expr) (span : Span)
  | ifThenElse (condition : Condition) (whenTrue whenFalse : Expr) (span : Span)

inductive Condition where
  | truthy (operand : Expr) (span : Span)
  | comparison (op : Comparison) (left right : Expr) (span : Span)

/-- A named function of fixed arity. A lambda binds its parameters in the frame of its caller; any
other function runs in a frame of its own. -/
structure Function where
  name : Name
  parameters : List Name
  body : Expr
  isLambda : Bool
  span : Span

end

namespace Expr

def span : Expr → Span
  | literal value => value.span
  | var name => name.span
  | additive _ _ _ span => span
  | letIn _ _ _ span => span
  | lambda _ _ span => span
  | call _ _ span => span
  | ifThenElse _ _ _ span => span

/-- A node shows as the text it was read from. -/
def text (expr : Expr) : String := expr.span.text

end Expr

namespace Condition

def span : Condition → Span
  | truthy _ span => span
  | comparison _ _ _ span => span

def text (condition : Condition) : String := condition.span.text

end Condition

/-- What tells the functions of one frame apart. -/
structure Signature where
  name : String
  arity : Nat
deriving DecidableEq, Repr

namespace Function

def arity (function : Function) : Nat := function.parameters.length

def signature (function : Function) : Signature := ⟨function.name.text, function.arity⟩

/-- The head of the definition as a declaration writes it. -/
def heading (function : Function) : String :=
  match function.parameters with
  | [] => function.name.text ++ " ()"
  | parameters => " ".intercalate (function.name.text :: parameters.map Name.text)

/-- A lambda and its use, with empty spans throughout. -/
def bareLambda (name : String) (parameters : List String) (body : Expr) : Function :=
  { name := .bare name, parameters := parameters.map .bare, body, isLambda := true,
    span := Span.empty }

end Function

mutual

/-- The length of the longest path from the node to a leaf, through the bodies of the functions that
the tree itself defines. A leaf has height one. -/
def Expr.height : Expr → Nat
  | .literal _ => 1
  | .var _ => 1
  | .additive _ left right _ => max left.height right.height + 1
  | .letIn _ value body _ => max value.height body.height + 1
  | .lambda function usage _ => max function.height usage.height + 1
  | .call _ arguments _ => argumentsHeight arguments + 1
  | .ifThenElse condition whenTrue whenFalse _ =>
    max condition.height (max whenTrue.height whenFalse.height) + 1

def Condition.height : Condition → Nat
  | .truthy operand _ => operand.height
  | .comparison _ left right _ => max left.height right.height

def Function.height : Function → Nat
  | ⟨_, _, body, _, _⟩ => body.height

/-- The largest height in a row of arguments. -/
def argumentsHeight : List Expr → Nat
  | [] => 0
  | argument :: rest => max argument.height (argumentsHeight rest)

end

end FrameLang
