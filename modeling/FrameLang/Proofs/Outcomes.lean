import FrameLang.Proofs.Recursion

/-!
How an evaluation can end. A scope is refused for a reason that the program gives, its releases
succeed, and a function that is stored under its own signature is called with the number of
arguments it takes. The failures that guard against anything else are never seen.
-/

set_option autoImplicit false

namespace FrameLang

/-!
## Causes of failure
-/

/-- What a program can do wrong in the eyes of the evaluator. -/
def Cause.Ordinary : Cause → Prop
  | variableBound _ | functionDefined _ _ | unknownVariable _ | unknownFunction _ _
  | depthExceeded _ => True
  | _ => False

/-- The causes for which an evaluation in the context can fail. A wrong number of arguments is among
them only if some function is stored under a foreign signature. -/
def Context.Admits (context : Context) : Cause → Prop
  | .argumentCount _ _ _ => ¬ context.WellKeyed
  | cause => cause.Ordinary

theorem Cause.Ordinary.admits {cause : Cause} (ordinary : cause.Ordinary) (context : Context) :
    context.Admits cause := by
  cases cause with
  | argumentCount name given expected => cases ordinary
  | _ => exact ordinary

theorem Context.Admits.ordinary {context : Context} {cause : Cause} (admits : context.Admits cause)
    (wellKeyed : context.WellKeyed) : cause.Ordinary := by
  cases cause with
  | argumentCount name given expected => exact absurd wellKeyed admits
  | _ => exact admits

/-- What is admitted inside a scope is admitted outside. -/
theorem Context.Admits.outside {inner context : Context} {cause : Cause}
    (admits : inner.Admits cause) (kept : context.WellKeyed → inner.WellKeyed) :
    context.Admits cause := by
  cases cause with
  | argumentCount name given expected => exact fun wellKeyed => admits (kept wellKeyed)
  | _ => exact admits

theorem Context.Admits.ne_budgetExhausted {context : Context} {cause : Cause}
    (admits : context.Admits cause) : cause ≠ .budgetExhausted := by
  rintro rfl
  exact admits

theorem Cause.Ordinary.kind_mem {cause : Cause} (ordinary : cause.Ordinary) :
    cause.kind ∈
      [ErrorKind.shadowing, .unboundVariable, .undefinedFunction, .recursionLimit] := by
  cases cause with
  | variableBound | functionDefined | unknownVariable | unknownFunction | depthExceeded =>
      simp [Cause.kind]
  | _ => cases ordinary

/-!
## Refused scopes
-/

theorem Context.withArguments_ordinary {context : Context} {pairs : List (Name × Value)}
    {error : Error} (refused : context.withArguments pairs = .error error) :
    error.cause.Ordinary := by
  induction pairs generalizing context with
  | nil => cases refused
  | cons pair rest ih =>
      rw [withArguments] at refused
      split at refused
      · cases refused
        trivial
      · exact ih refused

/-- A scope for arguments has as many values as parameters. -/
def Scope.Fits : Scope → Prop
  | arguments parameters values => parameters.length = values.length
  | _ => True

theorem Scope.ordinary_of_opened {scope : Scope} {context : Context} {error : Error}
    (refused : scope.opened context = .error error) (fits : scope.Fits) :
    error.cause.Ordinary := by
  cases scope with
  | call span =>
      obtain ⟨_, rfl⟩ := opened_call_error_iff.mp refused
      trivial
  | frame span =>
      obtain ⟨_, rfl⟩ := opened_frame_error_iff.mp refused
      trivial
  | var name value => exact Context.withArguments_ordinary refused
  | arguments parameters values =>
      rw [opened, if_pos (by exact fits)] at refused
      exact Context.withArguments_ordinary refused
  | function definition =>
      obtain ⟨_, rfl⟩ := opened_function_error_iff.mp refused
      trivial

/-- An armed call is refused by the limit or by a parameter whose name is taken. -/
theorem ArmedCall.ordinary_of_opened {call : ArmedCall} {context : Context} {error : Error}
    (fits : call.arguments.length = call.function.arity)
    (refused : call.opened context = .error error) : error.cause.Ordinary := by
  rcases except_bind_eq_error_iff.mp refused with atLimit | ⟨counted, _, later⟩
  · exact Scope.ordinary_of_opened atLimit trivial
  rcases except_bind_eq_error_iff.mp later with noFrame | ⟨framed, _, unbound⟩
  · rw [framed] at noFrame
    split at noFrame
    · cases noFrame
    · exact Scope.ordinary_of_opened noFrame trivial
  · exact Scope.ordinary_of_opened unbound fits.symm

/-!
## Failures of an evaluation
-/

section Parts

variable {context : Context} {error : Error}

theorem evaluateEach_length {arguments : List Expr} {values : List Value}
    (evaluated : (evaluateEach Expr.evaluate arguments context).result = .ok values) :
    values.length = arguments.length := by
  induction arguments generalizing values with
  | nil =>
      cases evaluated
      rfl
  | cons argument rest ih =>
      rw [evaluateEach_cons_result] at evaluated
      obtain ⟨value, _, later⟩ := except_bind_eq_ok_iff.mp evaluated
      obtain ⟨others, ended, made⟩ := except_bind_eq_ok_iff.mp later
      cases made
      exact congrArg Nat.succ (ih ended)

theorem exists_argument_of_failed {arguments : List Expr}
    (failed : (evaluateEach Expr.evaluate arguments context).result = .error error) :
    ∃ argument ∈ arguments, (argument.evaluate context).result = .error error := by
  induction arguments with
  | nil => cases failed
  | cons argument rest ih =>
      rw [evaluateEach_cons_result] at failed
      rcases except_bind_eq_error_iff.mp failed with first | ⟨value, _, later⟩
      · exact ⟨argument, List.mem_cons_self, first⟩
      rcases except_bind_eq_error_iff.mp later with others | ⟨values, _, made⟩
      · obtain ⟨other, member, itself⟩ := ih others
        exact ⟨other, List.mem_cons_of_mem argument member, itself⟩
      · cases made

theorem Condition.exists_operand_of_failed {condition : Condition}
    (failed : (condition.evaluate context).result = .error error) :
    ∃ operand ∈ condition.operands, (operand.evaluate context).result = .error error := by
  cases condition with
  | truthy operand span =>
      rw [evaluate_truthy_result] at failed
      rcases except_bind_eq_error_iff.mp failed with itself | ⟨value, _, tested⟩
      · exact ⟨operand, List.mem_cons_self, itself⟩
      · cases tested
  | comparison op left right span =>
      rw [evaluate_comparison_result] at failed
      rcases except_bind_eq_error_iff.mp failed with onLeft | ⟨leftValue, _, later⟩
      · exact ⟨left, List.mem_cons_self, onLeft⟩
      rcases except_bind_eq_error_iff.mp later with onRight | ⟨rightValue, _, compared⟩
      · exact ⟨right, List.mem_cons_of_mem left List.mem_cons_self, onRight⟩
      · cases compared

theorem Context.lookupVariable_ordinary {name : Name}
    (failed : (Context.lookupVariable name context).result = .error error) :
    error.cause.Ordinary := by
  rw [lookupVariable] at failed
  split at failed
  · cases failed
  · cases failed
    trivial

theorem Context.lookupFunction_ordinary {name : Name} {arity : Nat}
    (failed : (Context.lookupFunction name arity context).result = .error error) :
    error.cause.Ordinary := by
  rw [lookupFunction] at failed
  split at failed
  · cases failed
  · cases failed
    trivial

theorem Context.WellKeyed.arity_eq {signature : Signature} {function : Function}
    (wellKeyed : context.WellKeyed) (found : context.findFunction? signature = some function) :
    function.arity = signature.arity :=
  congrArg Signature.arity (wellKeyed signature function (registers_of_findFunction? found))

end Parts

/-- The induction is on the chain of nested evaluations: an error comes from the node itself or from
an evaluation that it invokes. -/
theorem Task.admits_of_failed (task : Task) {error : Error}
    (failed : (task.expr.evaluate task.context).result = .error error) :
    task.context.Admits error.cause := by
  induction task using wellFounded_invokes.induction generalizing error with
  | _ task ih =>
  obtain ⟨expr, context⟩ := task
  cases expr with
  | literal value =>
      rw [Expr.evaluate_literal_result] at failed
      cases failed
  | var name =>
      rw [Expr.evaluate_var_result] at failed
      exact (Context.lookupVariable_ordinary failed).admits context
  | additive op left right span =>
      rw [Expr.evaluate_additive_result] at failed
      rcases except_bind_eq_error_iff.mp failed with onLeft | ⟨leftValue, _, later⟩
      · exact ih _ .left onLeft
      rcases except_bind_eq_error_iff.mp later with onRight | ⟨rightValue, _, made⟩
      · exact ih _ .right onRight
      · cases made
  | letIn name value body span =>
      rw [Expr.evaluate_letIn_result] at failed
      rcases except_bind_eq_error_iff.mp failed with inValue | ⟨bound, _, later⟩
      · exact ih _ .letValue inValue
      rcases except_bind_eq_error_iff.mp later with refused | ⟨inner, opens, inBody⟩
      · exact (Scope.ordinary_of_opened refused trivial).admits context
      · exact (ih _ (.letBody opens) inBody).outside (Scope.wellKeyed_of_opened opens)
  | lambda function usage span =>
      rw [Expr.evaluate_lambda_result] at failed
      rcases except_bind_eq_error_iff.mp failed with refused | ⟨inner, opens, inUsage⟩
      · exact (Scope.ordinary_of_opened refused trivial).admits context
      · exact (ih _ (.usage opens) inUsage).outside (Scope.wellKeyed_of_opened opens)
  | call name arguments span =>
      rw [Expr.evaluate_call_result] at failed
      rcases except_bind_eq_error_iff.mp failed with unknown | ⟨function, resolved, later⟩
      · exact (Context.lookupFunction_ordinary unknown).admits context
      have found := Context.findFunction?_of_lookupFunction resolved
      rcases except_bind_eq_error_iff.mp later with inArguments | ⟨values, evaluated, later⟩
      · obtain ⟨argument, member, itself⟩ := exists_argument_of_failed inArguments
        exact ih _ (.argument member) itself
      rcases except_bind_eq_error_iff.mp later with mismatch | ⟨call, arms, later⟩
      · rw [Function.arm] at mismatch
        split at mismatch
        next => cases mismatch
        next different =>
          cases mismatch
          exact fun wellKeyed =>
            different ((evaluateEach_length evaluated).trans (wellKeyed.arity_eq found).symm)
      obtain ⟨fits, rfl⟩ := Function.arm_eq_ok_iff.mp arms
      rcases except_bind_eq_error_iff.mp later with refused | ⟨inner, opens, inBody⟩
      · exact (ArmedCall.ordinary_of_opened fits refused).admits context
      · exact (ih _ (.body found opens) inBody).outside (ArmedCall.wellKeyed_of_opened opens)
  | ifThenElse condition whenTrue whenFalse span =>
      rw [Expr.evaluate_ifThenElse_result] at failed
      rcases except_bind_eq_error_iff.mp failed with inCondition | ⟨truth, _, inBranch⟩
      · obtain ⟨operand, member, itself⟩ := Condition.exists_operand_of_failed inCondition
        exact ih _ (.operand member) itself
      cases truth with
      | true => exact ih _ .whenTrue inBranch
      | false => exact ih _ .whenFalse inBranch

/-!
## Every outcome
-/

/-- Where every function is stored under its own signature, expressions and conditions fail only
for what the program itself gets wrong. No guard of the evaluator is hit and no release fails. -/
theorem failures_of_wellKeyed {context : Context} (wellKeyed : context.WellKeyed) :
    (∀ (expr : Expr) (error : Error), (expr.evaluate context).result = .error error →
        error.kind ∈
          [ErrorKind.shadowing, .unboundVariable, .undefinedFunction, .recursionLimit]) ∧
      (∀ (condition : Condition) (error : Error),
        (condition.evaluate context).result = .error error →
          error.kind ∈
            [ErrorKind.shadowing, .unboundVariable, .undefinedFunction, .recursionLimit]) ∧
      (∀ expr : Expr, Quiet (expr.evaluate context).events) ∧
      (∀ condition : Condition, Quiet (condition.evaluate context).events) := by
  have ofExpr (expr : Expr) (error : Error)
      (failed : (expr.evaluate context).result = .error error) :
      error.kind ∈
        [ErrorKind.shadowing, .unboundVariable, .undefinedFunction, .recursionLimit] :=
    ((Task.admits_of_failed ⟨expr, context⟩ failed).ordinary wellKeyed).kind_mem
  refine ⟨ofExpr, fun condition error failed => ?_, fun expr => expr.evaluate_tidy.quiet context,
    fun condition => condition.evaluate_tidy.quiet context⟩
  obtain ⟨operand, _, itself⟩ := Condition.exists_operand_of_failed failed
  exact ofExpr operand error itself

/-- A function of no parameters that only calls itself. -/
def Function.endless : Function := .bareLambda "f" [] (.call (.bare "f") [] Span.empty)

/-- A context that knows a function which never returns, and has room for two calls. -/
def Context.withEndless : Context :=
  { base := { functions := Bindings.insert {} Function.endless.signature Function.endless }
    config := { maxCallDepth := 3 } }

theorem endless_call_fails_at_limit :
    Context.withEndless.WellKeyed ∧
      (Function.endless.body.evaluate Context.withEndless).result =
        .error ⟨.depthExceeded 3, Span.empty⟩ ∧
      Quiet (Function.endless.body.evaluate Context.withEndless).events := by
  have wellKeyed : Context.withEndless.WellKeyed := by
    intro signature function registered
    obtain ⟨frame, member, entry⟩ := registered
    cases List.mem_singleton.mp member
    cases List.mem_singleton.mp entry
    rfl
  exact ⟨wellKeyed, by rfl, (failures_of_wellKeyed wellKeyed).2.2.1 _⟩

/-- Evaluation ends. A recursion budget that covers the call levels which are left, each with the
largest tree at hand, is not run out of: whatever would happen then, the outcome is the same, and it
is a value or an error of the program. The outcome is also that of the recursion without a budget,
which has no other solution. -/
theorem evaluation_terminates (expr : Expr) (context : Context) {budget : Nat}
    (enough : (context.limit - context.callDepth + 1) * max expr.height context.bodyHeight ≤
      budget) :
    evaluateWithin budget expr context = expr.evaluate context ∧
      (∀ fallback, evaluateWithinOr fallback budget expr context = expr.evaluate context) ∧
      (∀ error, (expr.evaluate context).result = .error error →
        error.cause ≠ .budgetExhausted) ∧
      expr.evaluate context = expr.evaluateWith Expr.evaluate context ∧
      (∀ run : Expr → Action Value,
        (∀ expr context, run expr context = expr.evaluateWith run context) →
          run expr context = expr.evaluate context) := by
  refine ⟨?_, fun fallback => evaluateWithinOr_eq_evaluate fallback enough, fun error failed => ?_,
    expr.evaluate_eq context, fun run recursion => Expr.evaluate_unique recursion expr context⟩
  · rw [← evaluateWithinOr_exhausted]
    exact evaluateWithinOr_eq_evaluate _ enough
  · exact (Task.admits_of_failed ⟨expr, context⟩ failed).ne_budgetExhausted

theorem endless_call_terminates :
    Context.withEndless.budget Function.endless.body.height = 4 ∧
      (Function.endless.body.evaluate Context.withEndless).result =
        .error ⟨.depthExceeded 3, Span.empty⟩ ∧
      evaluateWithin 100 Function.endless.body Context.withEndless =
        Function.endless.body.evaluate Context.withEndless :=
  ⟨by rfl, by rfl, (evaluation_terminates _ _ (by decide)).1⟩

end FrameLang
