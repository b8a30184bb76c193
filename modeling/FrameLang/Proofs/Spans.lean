import FrameLang.Proofs.Grammar

/-!
Changing the spans of a tree, of all its nodes alike. Two trees are equal up to spans if they become
equal when all spans are erased; a part of a program that is read on its own has its spans moved.
-/

set_option autoImplicit false

namespace FrameLang

namespace Span

def moveLeft (distance : Nat) (span : Span) : Span :=
  ⟨span.start - distance, span.stop - distance, span.text⟩

def moveRight (distance : Nat) (span : Span) : Span :=
  ⟨span.start + distance, span.stop + distance, span.text⟩

def erase (_ : Span) : Span := empty

end Span

def Lexeme.mapSpan (f : Span → Span) (lexeme : Lexeme) : Lexeme := ⟨lexeme.token, f lexeme.span⟩

def Name.mapSpan (f : Span → Span) (name : Name) : Name := ⟨name.text, f name.span⟩

theorem Name.mapSpan_id (name : Name) : name.mapSpan id = name := rfl

def Value.mapSpan (f : Span → Span) (value : Value) : Value := ⟨value.number, f value.span⟩

mutual

def Expr.mapSpans (f : Span → Span) : Expr → Expr
  | .literal value => .literal (value.mapSpan f)
  | .var name => .var (name.mapSpan f)
  | .additive op left right span => .additive op (left.mapSpans f) (right.mapSpans f) (f span)
  | .letIn name value body span =>
    .letIn (name.mapSpan f) (value.mapSpans f) (body.mapSpans f) (f span)
  | .lambda function usage span => .lambda (function.mapSpans f) (usage.mapSpans f) (f span)
  | .call name arguments span => .call (name.mapSpan f) (argumentsMapSpans f arguments) (f span)
  | .ifThenElse condition whenTrue whenFalse span =>
    .ifThenElse (condition.mapSpans f) (whenTrue.mapSpans f) (whenFalse.mapSpans f) (f span)

def Condition.mapSpans (f : Span → Span) : Condition → Condition
  | .truthy operand span => .truthy (operand.mapSpans f) (f span)
  | .comparison op left right span =>
    .comparison op (left.mapSpans f) (right.mapSpans f) (f span)

def Function.mapSpans (f : Span → Span) : Function → Function
  | ⟨name, parameters, body, isLambda, span⟩ =>
    ⟨name.mapSpan f, parameters.map (Name.mapSpan f), body.mapSpans f, isLambda, f span⟩

def argumentsMapSpans (f : Span → Span) : List Expr → List Expr
  | [] => []
  | argument :: rest => argument.mapSpans f :: argumentsMapSpans f rest

end

def Declaration.mapSpans (f : Span → Span) : Declaration → Declaration
  | function definition => .function (definition.mapSpans f)
  | expression expr => .expression (expr.mapSpans f)

mutual

theorem Expr.mapSpans_id (expr : Expr) : expr.mapSpans id = expr := by
  match expr with
  | .literal _ | .var _ => rfl
  | .additive _ left right _ => rw [Expr.mapSpans, left.mapSpans_id, right.mapSpans_id, id]
  | .letIn name value body _ =>
      rw [Expr.mapSpans, value.mapSpans_id, body.mapSpans_id, name.mapSpan_id, id]
  | .lambda function usage _ => rw [Expr.mapSpans, function.mapSpans_id, usage.mapSpans_id, id]
  | .call name arguments _ =>
      rw [Expr.mapSpans, argumentsMapSpans_id arguments, name.mapSpan_id, id]
  | .ifThenElse condition whenTrue whenFalse _ =>
      rw [Expr.mapSpans, condition.mapSpans_id, whenTrue.mapSpans_id, whenFalse.mapSpans_id, id]

theorem Condition.mapSpans_id (condition : Condition) : condition.mapSpans id = condition := by
  match condition with
  | .truthy operand _ => rw [Condition.mapSpans, operand.mapSpans_id, id]
  | .comparison _ left right _ => rw [Condition.mapSpans, left.mapSpans_id, right.mapSpans_id, id]

theorem Function.mapSpans_id (function : Function) : function.mapSpans id = function := by
  match function with
  | ⟨name, parameters, body, isLambda, _⟩ =>
      have same : Name.mapSpan id = id := funext Name.mapSpan_id
      rw [Function.mapSpans, body.mapSpans_id, same, List.map_id, id, id]

theorem argumentsMapSpans_id (arguments : List Expr) :
    argumentsMapSpans id arguments = arguments := by
  match arguments with
  | [] => rfl
  | argument :: rest => rw [argumentsMapSpans, argument.mapSpans_id, argumentsMapSpans_id rest]

end

theorem Declaration.mapSpans_id : mapSpans id = id := by
  funext declaration
  cases declaration with
  | function definition => exact congrArg Declaration.function definition.mapSpans_id
  | expression expr => exact congrArg Declaration.expression expr.mapSpans_id

mutual

/-- The node itself and all expressions below it, in the bodies of the functions that the tree defines
as well. -/
def Expr.nodes : Expr → List Expr
  | .literal value => [.literal value]
  | .var name => [.var name]
  | .additive op left right span => .additive op left right span :: (left.nodes ++ right.nodes)
  | .letIn name value body span => .letIn name value body span :: (value.nodes ++ body.nodes)
  | .lambda function usage span => .lambda function usage span :: (function.nodes ++ usage.nodes)
  | .call name arguments span => .call name arguments span :: argumentsNodes arguments
  | .ifThenElse condition whenTrue whenFalse span =>
    .ifThenElse condition whenTrue whenFalse span ::
      (condition.nodes ++ (whenTrue.nodes ++ whenFalse.nodes))

def Condition.nodes : Condition → List Expr
  | .truthy operand _ => operand.nodes
  | .comparison _ left right _ => left.nodes ++ right.nodes

def Function.nodes : Function → List Expr
  | ⟨_, _, body, _, _⟩ => body.nodes

def argumentsNodes : List Expr → List Expr
  | [] => []
  | argument :: rest => argument.nodes ++ argumentsNodes rest

end

/-- Every expression of the declaration, at any depth. -/
def Declaration.nodes : Declaration → List Expr
  | function definition => definition.nodes
  | expression expr => expr.nodes

end FrameLang
