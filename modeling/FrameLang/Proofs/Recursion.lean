import FrameLang.Proofs.Termination

/-!
The recursion equations of evaluation. Any budget that covers the longest chain of nested
evaluations gives the same outcome, so evaluation satisfies its own recursion without a budget.
Because every sub-evaluation hands the context back, the result of a node is a function of the
results of its parts in contexts that are only ever extended.
-/

set_option autoImplicit false

namespace FrameLang

/-!
## Sufficient budgets
-/

/-- Evaluation under a budget, with another evaluator where the budget runs out. -/
def evaluateWithinOr (fallback : Expr → Action Value) : Nat → Expr → Action Value
  | 0, expr => fallback expr
  | budget + 1, expr => expr.evaluateWith (evaluateWithinOr fallback budget)

/-- A budget that covers the need of a task is never run out of, so it makes no difference what
would happen then. -/
theorem evaluateWithinOr_eq {fallback : Expr → Action Value} {bound budget enough : Nat}
    {task : Task} (bounded : task.Bounded bound) (covers : task.need bound ≤ budget)
    (alsoCovers : task.need bound ≤ enough) :
    evaluateWithinOr fallback budget task.expr task.context =
      evaluateWithin enough task.expr task.context := by
  induction budget generalizing task enough with
  | zero => exact absurd covers (Nat.not_le_of_gt (task.need_pos bound))
  | succ budget ih =>
      cases enough with
      | zero => exact absurd alsoCovers (Nat.not_le_of_gt (task.need_pos bound))
      | succ enough =>
          rw [evaluateWithinOr, evaluateWithin]
          -- Both budgets are one lower inside, and so is the need.
          refine Expr.evaluateWith_congr (evaluateWithin_tidy enough) fun inner invokes => ?_
          have smaller := Task.need_lt_of_invokes bounded invokes
          exact ih (bounded.of_invokes invokes) (by omega) (by omega)

theorem evaluateWithinOr_exhausted (budget : Nat) (expr : Expr) :
    evaluateWithinOr (fun expr => Action.fail ⟨.budgetExhausted, expr.span⟩) budget expr =
      evaluateWithin budget expr := by
  induction budget generalizing expr with
  | zero => rfl
  | succ budget ih => rw [evaluateWithinOr, evaluateWithin, funext ih]

theorem Task.bounded_max (expr : Expr) (context : Context) (height : Nat)
    (low : expr.height ≤ height) :
    Task.Bounded (max height context.bodyHeight) ⟨expr, context⟩ :=
  ⟨Nat.le_trans low (Nat.le_max_left _ _), Nat.le_max_right _ _⟩

theorem Context.need_le_budget (context : Context) {expr : Expr} {height : Nat}
    (low : expr.height ≤ height) :
    Task.need (max height context.bodyHeight) ⟨expr, context⟩ ≤ context.budget height :=
  calc context.levels * max height context.bodyHeight + expr.height
      ≤ context.levels * max height context.bodyHeight + max height context.bodyHeight :=
        Nat.add_le_add_left (Nat.le_trans low (Nat.le_max_left _ _)) _
    _ = context.budget height := (Nat.succ_mul _ _).symm

theorem evaluateWithinOr_eq_evaluate (fallback : Expr → Action Value) {expr : Expr}
    {context : Context} {budget : Nat} (enough : context.budget expr.height ≤ budget) :
    evaluateWithinOr fallback budget expr context = expr.evaluate context :=
  have bounded := Task.bounded_max expr context _ (Nat.le_refl expr.height)
  have covers := context.need_le_budget (Nat.le_refl expr.height)
  evaluateWithinOr_eq bounded (Nat.le_trans covers enough) covers

theorem evaluateWithin_eq_evaluate {bound budget : Nat} {task : Task}
    (bounded : task.Bounded bound) (covers : task.need bound ≤ budget) :
    evaluateWithin budget task.expr task.context = task.expr.evaluate task.context := by
  have most := Nat.le_max_left (task.context.budget task.expr.height) budget
  rw [← evaluateWithinOr_eq_evaluate
      (fun expr => Action.fail ⟨.budgetExhausted, expr.span⟩) most, evaluateWithinOr_exhausted,
    ← evaluateWithinOr_exhausted budget]
  exact evaluateWithinOr_eq bounded covers (Nat.le_trans covers (Nat.le_max_right _ _))

/-!
## The recursion without a budget
-/

/-- Evaluation asks evaluation for the evaluations it invokes. -/
theorem Expr.evaluate_eq (expr : Expr) (context : Context) :
    expr.evaluate context = expr.evaluateWith Expr.evaluate context := by
  have bounded := Task.bounded_max expr context _ (Nat.le_refl expr.height)
  have covers := context.need_le_budget (Nat.le_refl expr.height)
  calc expr.evaluate context
      = evaluateWithin (context.budget expr.height + 1) expr context :=
        (evaluateWithin_eq_evaluate bounded (Nat.le_succ_of_le covers)).symm
    _ = expr.evaluateWith Expr.evaluate context := by
        refine (Expr.evaluateWith_congr (evaluateWithin_tidy _) fun inner invokes => ?_).symm
        have smaller := Task.need_lt_of_invokes bounded invokes
        exact (evaluateWithin_eq_evaluate (bounded.of_invokes invokes) (by omega)).symm

/-- The recursion has no other solution. A recursion that could go on for ever would have many. -/
theorem Expr.evaluate_unique {run : Expr → Action Value}
    (recursion : ∀ expr context, run expr context = expr.evaluateWith run context) (expr : Expr)
    (context : Context) : run expr context = expr.evaluate context := by
  have unfolded (budget : Nat) (expr : Expr) : evaluateWithinOr run budget expr = run expr := by
    induction budget generalizing expr with
    | zero => rfl
    | succ budget ih =>
        rw [evaluateWithinOr, funext ih]
        exact (funext (recursion expr)).symm
  rw [← evaluateWithinOr_eq_evaluate run (Nat.le_refl _), unfolded]

theorem Condition.evaluate_eq (condition : Condition) (context : Context) :
    condition.evaluate context = condition.evaluateWith Expr.evaluate context := by
  refine (Condition.evaluateWith_congr (evaluateWithin_tidy _) fun operand member => ?_).symm
  have low := Condition.height_le_of_operand member
  exact (evaluateWithin_eq_evaluate (Task.bounded_max operand context _ low)
    (context.need_le_budget low)).symm

theorem ArmedCall.evaluate_eq (call : ArmedCall) (context : Context) :
    call.evaluate context = call.evaluateWith Expr.evaluate context := by
  refine (ArmedCall.evaluateWith_congr fun inner opens => ?_).symm
  have bounded : Task.Bounded (max call.function.height context.bodyHeight)
      ⟨call.function.body, inner⟩ := by
    constructor
    · exact Nat.le_trans (Nat.le_of_eq call.function.height_eq.symm) (Nat.le_max_left _ _)
    · refine Nat.le_trans ?_ (Nat.le_max_right _ _)
      exact Context.bodyHeight_le_iff.mpr fun signature function registered =>
        Context.bodyHeight_le_iff.mp (Nat.le_refl _) _ _
          (ArmedCall.registers_of_opened opens registered)
  have fewer : inner.levels + 1 ≤ context.levels + 1 :=
    Nat.succ_le_succ (Nat.le_of_lt (ArmedCall.levels_of_opened opens))
  refine (evaluateWithin_eq_evaluate bounded ?_).symm
  calc inner.levels * max call.function.height context.bodyHeight + call.function.body.height
      ≤ inner.levels * max call.function.height context.bodyHeight +
          max call.function.height context.bodyHeight :=
        Nat.add_le_add_left bounded.expr _
    _ = (inner.levels + 1) * max call.function.height context.bodyHeight :=
        (Nat.succ_mul _ _).symm
    _ ≤ context.budget call.function.height := Nat.mul_le_mul_right _ fewer

/-!
## Results of nodes
-/

section Results

variable (context : Context)

theorem evaluateEach_cons_result (argument : Expr) (rest : List Expr) :
    (evaluateEach Expr.evaluate (argument :: rest) context).result = (do
      let value ← (argument.evaluate context).result
      let values ← (evaluateEach Expr.evaluate rest context).result
      return value :: values) := by
  rw [evaluateEach, argument.evaluate_tidy.bind_result]
  simp only [(evaluateEach_tidy Expr.evaluate_tidy rest).bind_result]
  rfl

theorem Condition.evaluate_truthy_result (operand : Expr) (span : Span) :
    ((Condition.truthy operand span).evaluate context).result = (do
      let value ← (operand.evaluate context).result
      return value.isTruthy) := by
  rw [Condition.evaluate_eq, Condition.evaluateWith, operand.evaluate_tidy.bind_result]
  rfl

theorem Condition.evaluate_comparison_result (op : Comparison) (left right : Expr) (span : Span) :
    ((Condition.comparison op left right span).evaluate context).result = (do
      let leftValue ← (left.evaluate context).result
      let rightValue ← (right.evaluate context).result
      return op.holds leftValue rightValue) := by
  rw [Condition.evaluate_eq, Condition.evaluateWith, left.evaluate_tidy.bind_result]
  simp only [right.evaluate_tidy.bind_result]
  rfl

theorem ArmedCall.evaluate_result (call : ArmedCall) :
    (call.evaluate context).result = (do
      let inner ← call.opened context
      (call.function.body.evaluate inner).result) := by
  rw [ArmedCall.evaluate_eq, ArmedCall.evaluateWith_apply]
  exact call.around_result call.function.body.evaluate_tidy context

namespace Expr

theorem evaluate_literal_result (value : Value) :
    ((Expr.literal value).evaluate context).result = .ok value := by
  rw [evaluate_eq, evaluateWith, Action.pure_apply]

theorem evaluate_var_result (name : Name) :
    ((Expr.var name).evaluate context).result = (Context.lookupVariable name context).result := by
  rw [evaluate_eq, evaluateWith]

theorem evaluate_additive_result (op : AdditiveOp) (left right : Expr) (span : Span) :
    ((Expr.additive op left right span).evaluate context).result = (do
      let leftValue ← (left.evaluate context).result
      let rightValue ← (right.evaluate context).result
      return ⟨op.apply leftValue rightValue, span⟩) := by
  rw [evaluate_eq, evaluateWith, left.evaluate_tidy.bind_result]
  simp only [right.evaluate_tidy.bind_result]
  rfl

theorem evaluate_letIn_result (name : Name) (value body : Expr) (span : Span) :
    ((Expr.letIn name value body span).evaluate context).result = (do
      let bound ← (value.evaluate context).result
      let inner ← (Scope.var name bound).opened context
      (body.evaluate inner).result) := by
  rw [evaluate_eq, evaluateWith, value.evaluate_tidy.bind_result]
  simp only [Scope.around_result body.evaluate_tidy]

theorem evaluate_lambda_result (function : Function) (usage : Expr) (span : Span) :
    ((Expr.lambda function usage span).evaluate context).result = (do
      let inner ← (Scope.function function).opened context
      (usage.evaluate inner).result) := by
  rw [evaluate_eq, evaluateWith, Scope.around_result usage.evaluate_tidy]

theorem evaluate_call_result (name : Name) (arguments : List Expr) (span : Span) :
    ((Expr.call name arguments span).evaluate context).result = (do
      let function ← (Context.lookupFunction name arguments.length context).result
      let values ← (evaluateEach Expr.evaluate arguments context).result
      let call ← function.arm values span
      let inner ← call.opened context
      (call.function.body.evaluate inner).result) := by
  rw [evaluate_eq, evaluateWith, (Context.lookupFunction_tidy name arguments.length).bind_result]
  simp only [(evaluateEach_tidy Expr.evaluate_tidy arguments).bind_result,
    (Action.Tidy.ofExcept _).bind_result, Action.ofExcept_result, ← ArmedCall.evaluate_result,
    ArmedCall.evaluate_eq]

theorem evaluate_ifThenElse_result (condition : Condition) (whenTrue whenFalse : Expr)
    (span : Span) :
    ((Expr.ifThenElse condition whenTrue whenFalse span).evaluate context).result = (do
      let truth ← (condition.evaluate context).result
      if truth then (whenTrue.evaluate context).result
      else (whenFalse.evaluate context).result) := by
  rw [evaluate_eq, evaluateWith, condition.evaluate_eq,
    (condition.evaluateWith_tidy Expr.evaluate_tidy).bind_result]
  congr 1
  funext truth
  cases truth <;> rfl

end Expr

end Results

end FrameLang
