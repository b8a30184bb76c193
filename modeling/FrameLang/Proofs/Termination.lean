import FrameLang.Proofs.Registration
import FrameLang.Proofs.Restoration

/-!
Evaluation ends. An evaluation asks for others: of the trees below its node, possibly inside a
scope, and of the bodies of the functions it calls. Every call uses up one of the levels that are
left below the limit, and everything else goes down in a tree, so the chains of evaluations asked
for are finite, however the functions call each other.

The evaluator with a recursion budget therefore settles as soon as the budget covers such a chain,
and what it settles at satisfies the recursion equation that mentions no budget.
-/

set_option autoImplicit false

namespace FrameLang

/-!
## Levels that are left
-/

/-- The number of call levels between the calls in progress and the limit. -/
def Context.levels (context : Context) : Nat := context.limit - context.callDepth

theorem Context.levels_withArguments {context inner : Context} {pairs : List (Name × Value)}
    (arrives : context.withArguments pairs = .ok inner) : inner.levels = context.levels := by
  induction pairs generalizing context with
  | nil =>
      cases arrives
      rfl
  | cons pair rest ih =>
      rw [withArguments] at arrives
      split at arrives
      · cases arrives
      · rw [ih arrives]
        simp only [levels, withVariable, limit_mapCurrent, callDepth_mapCurrent]

theorem Scope.levels_of_opened {scope : Scope} {context inner : Context}
    (opens : scope.opened context = .ok inner) : inner.levels ≤ context.levels := by
  cases scope with
  | call span =>
      obtain ⟨_, rfl⟩ := opened_call_ok_iff.mp opens
      exact Nat.sub_le_sub_left (Nat.le_succ context.callDepth) context.limit
  | frame span =>
      obtain ⟨_, rfl⟩ := opened_frame_ok_iff.mp opens
      exact Nat.le_refl context.levels
  | var name value => exact Nat.le_of_eq (Context.levels_withArguments opens)
  | arguments parameters values =>
      obtain ⟨_, arrives⟩ := opened_arguments_ok_iff.mp opens
      exact Nat.le_of_eq (Context.levels_withArguments arrives)
  | function definition =>
      obtain ⟨_, rfl⟩ := opened_function_ok_iff.mp opens
      simp only [Context.levels, Context.withFunction, Context.limit_mapCurrent,
        Context.callDepth_mapCurrent, Nat.le_refl]

theorem Scope.levels_of_opened_call {span : Span} {context inner : Context}
    (opens : (Scope.call span).opened context = .ok inner) : inner.levels < context.levels := by
  obtain ⟨room, rfl⟩ := opened_call_ok_iff.mp opens
  change context.limit - (context.callDepth + 1) < context.limit - context.callDepth
  omega

theorem ArmedCall.levels_of_opened {call : ArmedCall} {context inner : Context}
    (opens : call.opened context = .ok inner) : inner.levels < context.levels := by
  obtain ⟨counted, framed, counts, frames, binds⟩ := scopes_of_opened opens
  have inFrame : framed.levels ≤ counted.levels := by
    rw [ArmedCall.framed] at frames
    split at frames
    · cases frames
      exact Nat.le_refl _
    · exact Scope.levels_of_opened frames
  calc inner.levels ≤ framed.levels := Scope.levels_of_opened binds
    _ ≤ counted.levels := inFrame
    _ < context.levels := Scope.levels_of_opened_call counts

/-!
## Nested evaluations
-/

def Condition.operands : Condition → List Expr
  | .truthy operand _ => [operand]
  | .comparison _ left right _ => [left, right]

structure Task where
  expr : Expr
  context : Context

namespace Task

/-- The first evaluation may ask directly for the second. Whether it comes to that is left open, and
so are the values that are bound. -/
inductive Invokes : Task → Task → Prop where
  | left {op left right span context} :
      Invokes ⟨.additive op left right span, context⟩ ⟨left, context⟩
  | right {op left right span context} :
      Invokes ⟨.additive op left right span, context⟩ ⟨right, context⟩
  | letValue {name value body span context} :
      Invokes ⟨.letIn name value body span, context⟩ ⟨value, context⟩
  | letBody {name value body span context bound inner} :
      (Scope.var name bound).opened context = .ok inner →
      Invokes ⟨.letIn name value body span, context⟩ ⟨body, inner⟩
  | usage {function usage span context inner} :
      (Scope.function function).opened context = .ok inner →
      Invokes ⟨.lambda function usage span, context⟩ ⟨usage, inner⟩
  | argument {name arguments span context argument} :
      argument ∈ arguments →
      Invokes ⟨.call name arguments span, context⟩ ⟨argument, context⟩
  | body {name arguments span context function values inner} :
      context.findFunction? ⟨name.text, arguments.length⟩ = some function →
      ArmedCall.opened context ⟨function, values, span⟩ = .ok inner →
      Invokes ⟨.call name arguments span, context⟩ ⟨function.body, inner⟩
  | operand {condition whenTrue whenFalse span context operand} :
      operand ∈ condition.operands →
      Invokes ⟨.ifThenElse condition whenTrue whenFalse span, context⟩ ⟨operand, context⟩
  | whenTrue {condition whenTrue whenFalse span context} :
      Invokes ⟨.ifThenElse condition whenTrue whenFalse span, context⟩ ⟨whenTrue, context⟩
  | whenFalse {condition whenTrue whenFalse span context} :
      Invokes ⟨.ifThenElse condition whenTrue whenFalse span, context⟩ ⟨whenFalse, context⟩

end Task

theorem Expr.height_pos (expr : Expr) : 0 < expr.height := by
  cases expr <;> simp [Expr.height]

theorem Expr.height_le_argumentsHeight {argument : Expr} {arguments : List Expr}
    (member : argument ∈ arguments) : argument.height ≤ argumentsHeight arguments := by
  induction arguments with
  | nil => cases member
  | cons first rest ih =>
      rw [argumentsHeight]
      rcases List.mem_cons.mp member with rfl | later
      · exact Nat.le_max_left _ _
      · exact Nat.le_trans (ih later) (Nat.le_max_right _ _)

theorem Condition.height_le_of_operand {operand : Expr} {condition : Condition}
    (member : operand ∈ condition.operands) : operand.height ≤ condition.height := by
  cases condition with
  | truthy other span =>
      cases List.mem_singleton.mp member
      exact Nat.le_refl _
  | comparison op left right span =>
      rcases List.mem_cons.mp member with rfl | other
      · exact Nat.le_max_left _ _
      · cases List.mem_singleton.mp other
        exact Nat.le_max_right _ _

theorem Function.height_eq (function : Function) : function.height = function.body.height := by
  cases function
  simp only [Function.height]

namespace Task

variable {outer inner : Task}

/-- Either the tree gets lower and no level is won, or a level is used up and the new tree is the
body of a known function. -/
theorem Invokes.descends (invokes : outer.Invokes inner) :
    (inner.expr.height < outer.expr.height ∧ inner.context.levels ≤ outer.context.levels) ∨
      (inner.expr.height ≤ outer.context.bodyHeight ∧
        inner.context.levels < outer.context.levels) := by
  cases invokes with
  | left | right | letValue | whenTrue | whenFalse =>
      left
      simp only [Expr.height]
      omega
  | letBody opens =>
      left
      refine ⟨?_, Scope.levels_of_opened opens⟩
      simp only [Expr.height]
      omega
  | usage opens =>
      left
      refine ⟨?_, Scope.levels_of_opened opens⟩
      simp only [Expr.height]
      omega
  | argument member =>
      left
      have low := Expr.height_le_argumentsHeight member
      simp only [Expr.height]
      omega
  | operand member =>
      left
      have low := Condition.height_le_of_operand member
      simp only [Expr.height]
      omega
  | body found opens =>
      right
      have low := Context.bodyHeight_le_iff.mp (Nat.le_refl _) _ _
        (Context.registers_of_findFunction? found)
      exact ⟨Function.height_eq _ ▸ low, ArmedCall.levels_of_opened opens⟩

/-- No chain of nested evaluations is infinite. -/
theorem wellFounded_invokes : WellFounded fun inner outer : Task => outer.Invokes inner := by
  have descending : WellFounded (InvImage (Prod.Lex (· < ·) (· < ·))
      fun task : Task => (task.context.levels, task.expr.height)) :=
    InvImage.wf _ (Prod.lex Nat.lt_wfRel Nat.lt_wfRel).wf
  refine Subrelation.wf (fun {inner outer} invokes => ?_) descending
  rcases invokes.descends with ⟨lower, kept⟩ | ⟨_, used⟩
  · rcases Nat.lt_or_eq_of_le kept with fewer | same
    · exact .left _ _ fewer
    · exact Prod.lex_def.mpr (.inr ⟨same, lower⟩)
  · exact .left _ _ used

/-- No tree at hand is higher than the bound: neither the expression nor the body of a function that
the context knows. -/
structure Bounded (bound : Nat) (task : Task) : Prop where
  expr : task.expr.height ≤ bound
  bodies : task.context.bodyHeight ≤ bound

theorem Bounded.of_invokes {bound : Nat} (bounded : outer.Bounded bound)
    (invokes : outer.Invokes inner) : inner.Bounded bound := by
  have bodies := Context.bodyHeight_le_iff.mp bounded.bodies
  constructor
  · rcases invokes.descends with ⟨lower, _⟩ | ⟨low, _⟩
    · exact Nat.le_trans (Nat.le_of_lt lower) bounded.expr
    · exact Nat.le_trans low bounded.bodies
  · refine Context.bodyHeight_le_iff.mpr fun signature function registered => ?_
    have below := bounded.expr
    cases invokes with
    | left | right | letValue | argument | operand | whenTrue | whenFalse =>
        exact bodies _ _ registered
    | letBody opens =>
        exact bodies _ _ (by simpa using Scope.registers_of_opened opens registered)
    | body found opens => exact bodies _ _ (ArmedCall.registers_of_opened opens registered)
    | usage opens =>
        rcases Scope.registers_of_opened opens registered with old | ⟨same, _⟩
        · exact bodies _ _ old
        · cases same
          simp only [Expr.height] at below
          omega

/-- A chain of nested evaluations goes down the tree of the expression, and one further tree for
every level that is left. -/
def need (bound : Nat) (task : Task) : Nat := task.context.levels * bound + task.expr.height

theorem need_pos (bound : Nat) (task : Task) : 0 < task.need bound :=
  Nat.lt_of_lt_of_le task.expr.height_pos (Nat.le_add_left _ _)

theorem need_lt_of_invokes {bound : Nat} (bounded : outer.Bounded bound)
    (invokes : outer.Invokes inner) : inner.need bound < outer.need bound := by
  rcases invokes.descends with ⟨lower, kept⟩ | ⟨low, used⟩
  · exact Nat.add_lt_add_of_le_of_lt (Nat.mul_le_mul_right bound kept) lower
  · calc inner.need bound
        ≤ inner.context.levels * bound + bound :=
          Nat.add_le_add_left (Nat.le_trans low bounded.bodies) _
      _ = (inner.context.levels + 1) * bound := (Nat.succ_mul _ _).symm
      _ ≤ outer.context.levels * bound := Nat.mul_le_mul_right bound used
      _ < outer.need bound := Nat.lt_add_of_pos_right outer.expr.height_pos

end Task

/-!
## Steps that ask only for evaluations two evaluators agree on
-/

theorem Action.Tidy.bind_congr {α β : Type} {first second : Action α} {next other : α → Action β}
    {context : Context} (tidy : first.Tidy) (same : second context = first context)
    (rest : ∀ value, (first context).result = .ok value →
      other value context = next value context) :
    (second >>= other) context = (first >>= next) context := by
  cases ended : (first context).result with
  | error error => rw [bind_of_error ended, bind_of_error (same ▸ ended), same]
  | ok value =>
      rw [bind_of_ok ended, bind_of_ok (same ▸ ended), same, tidy.restores, rest value ended]

section Agreement

variable {first second : Expr → Action Value} (tidy : ∀ expr, (first expr).Tidy) {context : Context}

include tidy

theorem evaluateEach_congr {arguments : List Expr}
    (same : ∀ argument ∈ arguments, second argument context = first argument context) :
    evaluateEach second arguments context = evaluateEach first arguments context := by
  induction arguments with
  | nil => rfl
  | cons argument rest ih =>
      have later := ih fun other member => same other (List.mem_cons_of_mem argument member)
      exact (tidy argument).bind_congr (same argument List.mem_cons_self) fun value _ =>
        (evaluateEach_tidy tidy rest).bind_congr later fun values _ => rfl

theorem Condition.evaluateWith_congr {condition : Condition}
    (same : ∀ operand ∈ condition.operands, second operand context = first operand context) :
    condition.evaluateWith second context = condition.evaluateWith first context := by
  cases condition with
  | truthy operand span =>
      exact (tidy operand).bind_congr (same operand List.mem_cons_self) fun value _ => rfl
  | comparison op left right span =>
      exact (tidy left).bind_congr (same left List.mem_cons_self) fun leftValue _ =>
        (tidy right).bind_congr (same right (List.mem_cons_of_mem _ List.mem_cons_self))
          fun rightValue _ => rfl

end Agreement

theorem ArmedCall.evaluateWith_congr {first second : Expr → Action Value} {call : ArmedCall}
    {context : Context}
    (same : ∀ inner, call.opened context = .ok inner →
      second call.function.body inner = first call.function.body inner) :
    call.evaluateWith second context = call.evaluateWith first context := by
  rw [evaluateWith_apply, evaluateWith_apply, around_congr same]

theorem Context.findFunction?_of_lookupFunction {context : Context} {name : Name} {arity : Nat}
    {function : Function}
    (resolved : (Context.lookupFunction name arity context).result = .ok function) :
    context.findFunction? ⟨name.text, arity⟩ = some function := by
  rw [lookupFunction] at resolved
  split at resolved
  · cases resolved
    assumption
  · cases resolved

theorem Function.arm_eq_ok_iff {function : Function} {arguments : List Value} {span : Span}
    {call : ArmedCall} :
    function.arm arguments span = .ok call ↔
      arguments.length = function.arity ∧ call = ⟨function, arguments, span⟩ := by
  rw [Function.arm]
  split
  next fits => simp only [Except.ok.injEq, fits, true_and, eq_comm]
  next different => simp only [reduceCtorEq, different, false_and]

/-- One step of evaluation depends on the evaluations that its task invokes and on no others. -/
theorem Expr.evaluateWith_congr {first second : Expr → Action Value}
    (tidy : ∀ expr, (first expr).Tidy) {expr : Expr} {context : Context}
    (same : ∀ inner, Task.Invokes ⟨expr, context⟩ inner →
      second inner.expr inner.context = first inner.expr inner.context) :
    expr.evaluateWith second context = expr.evaluateWith first context := by
  cases expr with
  | literal value => rfl
  | var name => rfl
  | additive op left right span =>
      exact (tidy left).bind_congr (same _ .left) fun leftValue _ =>
        (tidy right).bind_congr (same _ .right) fun rightValue _ => rfl
  | letIn name value body span =>
      exact (tidy value).bind_congr (same _ .letValue) fun bound _ =>
        Scope.around_congr fun inner opens => same _ (.letBody opens)
  | lambda function usage span =>
      exact Scope.around_congr fun inner opens => same _ (.usage opens)
  | call name arguments span =>
      refine (Context.lookupFunction_tidy name arguments.length).bind_congr rfl
        fun function resolved => ?_
      have found := Context.findFunction?_of_lookupFunction resolved
      refine (evaluateEach_tidy tidy arguments).bind_congr
        (evaluateEach_congr tidy fun argument member => same _ (.argument member))
        fun values _ => ?_
      refine (Action.Tidy.ofExcept (function.arm values span)).bind_congr rfl fun call armed => ?_
      have shape : call = ⟨function, values, span⟩ := by
        cases arms : function.arm values span with
        | error error =>
            rw [arms] at armed
            cases armed
        | ok other =>
            rw [arms] at armed
            cases armed
            exact (Function.arm_eq_ok_iff.mp arms).2
      subst shape
      exact ArmedCall.evaluateWith_congr fun inner opens => same _ (.body found opens)
  | ifThenElse condition whenTrue whenFalse span =>
      refine (Condition.evaluateWith_tidy tidy condition).bind_congr
        (Condition.evaluateWith_congr tidy fun operand member => same _ (.operand member))
        fun truth _ => ?_
      cases truth with
      | true => exact same _ .whenTrue
      | false => exact same _ .whenFalse

end FrameLang
