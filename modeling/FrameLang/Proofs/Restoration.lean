import FrameLang.Proofs.Opening

/-!
Evaluation leaves no trace in the context it runs in, neither when it yields a value nor when it
fails. The property is closed under sequencing and under scopes, so it holds of every step of
evaluation whose sub-evaluations have it, and from there under every recursion budget.
-/

set_option autoImplicit false

namespace FrameLang

/-- The action leaves the context as it found it and reports no failed release. -/
structure Action.Tidy {α : Type} (action : Action α) : Prop where
  restores : ∀ context, (action context).context = context
  quiet : ∀ context, Quiet (action context).events

namespace Action.Tidy

variable {α β : Type}

theorem done (value : α) : Tidy (pure value : Action α) := ⟨fun _ => rfl, fun _ => quiet_nil⟩

theorem fail (error : Error) : Tidy (Action.fail error : Action α) :=
  ⟨fun _ => rfl, fun _ => quiet_nil⟩

theorem ofExcept (result : Except Error α) : Tidy (Action.ofExcept result) := by
  cases result with
  | ok value => exact .done value
  | error error => exact .fail error

theorem bind {first : Action α} {next : α → Action β} (firstTidy : Tidy first)
    (nextTidy : ∀ value, Tidy (next value)) : Tidy (first >>= next) := by
  constructor
  · intro context
    cases ended : (first context).result with
    | error error =>
        rw [bind_of_error ended]
        exact firstTidy.restores context
    | ok value =>
        rw [bind_of_ok ended]
        exact ((nextTidy value).restores _).trans (firstTidy.restores context)
  · intro context
    cases ended : (first context).result with
    | error error =>
        rw [bind_of_error ended]
        exact firstTidy.quiet context
    | ok value =>
        rw [bind_of_ok ended]
        exact (firstTidy.quiet context).append ((nextTidy value).quiet _)

theorem bind_result {first : Action α} (firstTidy : Tidy first) (next : α → Action β)
    (context : Context) :
    ((first >>= next) context).result =
      (first context).result >>= fun value => (next value context).result := by
  cases ended : (first context).result with
  | error error =>
      rw [bind_of_error ended]
      rfl
  | ok value =>
      rw [bind_of_ok ended, firstTidy.restores]
      rfl

end Action.Tidy

/-!
## Scopes
-/

namespace Scope

variable {α : Type} {scope : Scope} {context : Context}

/-- A scope that is refused has no effect, and the work is not done. -/
theorem around_of_error {error : Error} (refused : scope.opened context = .error error)
    (work : Action α) :
    scope.around work context =
      { result := .error error, context, events := (scope.enter context).events } := by
  obtain ⟨failed, stayed, _⟩ := enter_of_error refused
  change ((scope.enter >>= _) context).after [] = _
  rw [Action.bind_of_error failed, stayed]
  rfl

/-- Work that hands back the context it was given yields its own result through the scope. -/
theorem around_of_ok {inner : Context} {work : Action α} (opens : scope.opened context = .ok inner)
    (restores : (work inner).context = inner) :
    scope.around work context =
      { result := (work inner).result
        context
        events := (scope.enter context).events ++
          ((work inner).events ++ scope.closing context) } := by
  obtain ⟨succeeded, arrived, _⟩ := enter_of_ok opens
  change ((scope.enter >>= _) context).after [] = _
  rw [Action.bind_of_ok succeeded, arrived, Action.attempt_bind, restores, leave_of_ok opens]
  rfl

theorem around_tidy (scope : Scope) {work : Action α} (workTidy : work.Tidy) :
    (scope.around work).Tidy := by
  constructor
  · intro context
    cases opens : scope.opened context with
    | error error => rw [around_of_error opens]
    | ok inner => rw [around_of_ok opens (workTidy.restores inner)]
  · intro context
    cases opens : scope.opened context with
    | error error =>
        rw [around_of_error opens]
        exact (enter_of_error opens).2.2
    | ok inner =>
        rw [around_of_ok opens (workTidy.restores inner)]
        exact (enter_of_ok opens).2.2.append
          ((workTidy.quiet inner).append (closing_quiet scope context))

theorem around_result {work : Action α} (workTidy : work.Tidy) (scope : Scope) (context : Context) :
    (scope.around work context).result =
      scope.opened context >>= fun inner => (work inner).result := by
  cases opens : scope.opened context with
  | error error =>
      rw [around_of_error opens]
      rfl
  | ok inner =>
      rw [around_of_ok opens (workTidy.restores inner)]
      rfl

theorem around_events {work : Action α} (workTidy : work.Tidy) (scope : Scope)
    (context : Context) :
    (scope.around work context).events =
      scope.opening context ++
        match scope.opened context with
        | .ok inner => (work inner).events ++ scope.closing context
        | .error _ => [] := by
  cases opens : scope.opened context with
  | error error => rw [around_of_error opens, enter_events, List.append_nil]
  | ok inner => rw [around_of_ok opens (workTidy.restores inner), enter_events]

theorem around_congr {first second : Action α}
    (same : ∀ inner, scope.opened context = .ok inner → second inner = first inner) :
    scope.around second context = scope.around first context := by
  cases opens : scope.opened context with
  | error error => rw [around_of_error opens, around_of_error opens]
  | ok inner =>
      obtain ⟨succeeded, arrived, _⟩ := enter_of_ok opens
      change ((scope.enter >>= _) context).after [] = ((scope.enter >>= _) context).after []
      rw [Action.bind_of_ok succeeded, Action.bind_of_ok succeeded, arrived, Action.attempt_bind,
        Action.attempt_bind, same inner opens]

end Scope

/-!
## Calls
-/

namespace ArmedCall

variable {call : ArmedCall} {context : Context}

def inFrame (call : ArmedCall) (work : Action Value) : Action Value :=
  if call.function.isLambda then work else (Scope.frame call.span).around work

/-- Runs some work where the call runs the body of its function. -/
def around (call : ArmedCall) (work : Action Value) : Action Value :=
  (Scope.call call.span).around
    (call.inFrame ((Scope.arguments call.function.parameters call.arguments).around work))

theorem evaluateWith_apply (evaluate : Expr → Action Value) (call : ArmedCall) (context : Context) :
    call.evaluateWith evaluate context =
      (call.around (evaluate call.function.body) context).after
        [.callingFunction call.function context.callDepth call.span] := rfl

theorem inFrame_tidy (call : ArmedCall) {work : Action Value} (workTidy : work.Tidy) :
    (call.inFrame work).Tidy := by
  rw [inFrame]
  split
  · exact workTidy
  · exact Scope.around_tidy (.frame call.span) workTidy

theorem inFrame_result (call : ArmedCall) {work : Action Value} (workTidy : work.Tidy)
    (context : Context) :
    (call.inFrame work context).result =
      call.framed context >>= fun inner => (work inner).result := by
  rw [inFrame, framed]
  split
  · rfl
  · exact Scope.around_result workTidy (.frame call.span) context

theorem inFrame_congr {first second : Action Value}
    (same : ∀ inner, call.framed context = .ok inner → second inner = first inner) :
    call.inFrame second context = call.inFrame first context := by
  rw [framed] at same
  rw [inFrame, inFrame]
  split
  next isLambda => exact same context (if_pos isLambda)
  next ordinary => exact Scope.around_congr fun inner opens => same inner (by rwa [if_neg ordinary])

theorem around_tidy (call : ArmedCall) {work : Action Value} (workTidy : work.Tidy) :
    (call.around work).Tidy :=
  Scope.around_tidy _ (call.inFrame_tidy (Scope.around_tidy _ workTidy))

theorem around_result (call : ArmedCall) {work : Action Value} (workTidy : work.Tidy)
    (context : Context) :
    (call.around work context).result =
      call.opened context >>= fun inner => (work inner).result := by
  have argumentsTidy :=
    Scope.around_tidy (.arguments call.function.parameters call.arguments) workTidy
  rw [around, Scope.around_result (call.inFrame_tidy argumentsTidy), opened]
  simp only [call.inFrame_result argumentsTidy, Scope.around_result workTidy, bind_assoc]

theorem around_congr {first second : Action Value}
    (same : ∀ inner, call.opened context = .ok inner → second inner = first inner) :
    call.around second context = call.around first context := by
  refine Scope.around_congr fun counted counts => inFrame_congr fun framed frames =>
    Scope.around_congr fun inner binds => same inner ?_
  exact except_bind_eq_ok_iff.mpr
    ⟨counted, counts, except_bind_eq_ok_iff.mpr ⟨framed, frames, binds⟩⟩

end ArmedCall

/-!
## Evaluation
-/

theorem Context.lookupVariable_tidy (name : Name) : (Context.lookupVariable name).Tidy := by
  constructor <;> intro context <;> simp only [Context.lookupVariable]
  · split <;> rfl
  · split <;> exact quiet_nil

theorem Context.lookupFunction_tidy (name : Name) (arity : Nat) :
    (Context.lookupFunction name arity).Tidy := by
  constructor <;> intro context <;> simp only [Context.lookupFunction]
  · split <;> rfl
  · split <;> exact quiet_nil

section Step

variable {evaluate : Expr → Action Value} (tidy : ∀ expr, (evaluate expr).Tidy)

include tidy

theorem evaluateEach_tidy (arguments : List Expr) : (evaluateEach evaluate arguments).Tidy := by
  induction arguments with
  | nil => exact .done []
  | cons argument rest ih =>
      exact .bind (tidy argument) fun value => .bind ih fun values => .done (value :: values)

theorem Condition.evaluateWith_tidy (condition : Condition) :
    (condition.evaluateWith evaluate).Tidy := by
  cases condition with
  | truthy operand span => exact .bind (tidy operand) fun value => .done value.isTruthy
  | comparison op left right span =>
      exact .bind (tidy left) fun leftValue => .bind (tidy right) fun rightValue =>
        .done (op.holds leftValue rightValue)

theorem ArmedCall.evaluateWith_tidy (call : ArmedCall) : (call.evaluateWith evaluate).Tidy := by
  have ran := call.around_tidy (tidy call.function.body)
  constructor
  · intro context
    exact ran.restores context
  · intro context
    rw [evaluateWith_apply]
    exact .append (by simp [Quiet]) (ran.quiet context)

/-- One step of evaluation is tidy if the evaluations it asks for are. -/
theorem Expr.evaluateWith_tidy (expr : Expr) : (expr.evaluateWith evaluate).Tidy := by
  cases expr with
  | literal value => exact .done value
  | var name => exact Context.lookupVariable_tidy name
  | additive op left right span =>
      exact .bind (tidy left) fun leftValue => .bind (tidy right) fun rightValue => .done _
  | letIn name value body span =>
      exact .bind (tidy value) fun bound => Scope.around_tidy (.var name bound) (tidy body)
  | lambda function usage span => exact Scope.around_tidy (.function function) (tidy usage)
  | call name arguments span =>
      exact .bind (Context.lookupFunction_tidy name arguments.length) fun function =>
        .bind (evaluateEach_tidy tidy arguments) fun values =>
          .bind (.ofExcept (function.arm values span)) fun call =>
            ArmedCall.evaluateWith_tidy tidy call
  | ifThenElse condition whenTrue whenFalse span =>
      refine .bind (Condition.evaluateWith_tidy tidy condition) fun truth => ?_
      cases truth with
      | true => exact tidy whenTrue
      | false => exact tidy whenFalse

end Step

theorem evaluateWithin_tidy (budget : Nat) (expr : Expr) : (evaluateWithin budget expr).Tidy := by
  induction budget generalizing expr with
  | zero => exact .fail _
  | succ budget ih => exact Expr.evaluateWith_tidy ih expr

theorem Expr.evaluate_tidy (expr : Expr) : expr.evaluate.Tidy :=
  ⟨fun context => (evaluateWithin_tidy _ expr).restores context,
    fun context => (evaluateWithin_tidy _ expr).quiet context⟩

theorem Condition.evaluate_tidy (condition : Condition) : condition.evaluate.Tidy :=
  ⟨fun context => (condition.evaluateWith_tidy (evaluateWithin_tidy _)).restores context,
    fun context => (condition.evaluateWith_tidy (evaluateWithin_tidy _)).quiet context⟩

theorem ArmedCall.evaluate_tidy (call : ArmedCall) : call.evaluate.Tidy :=
  ⟨fun context => (call.evaluateWith_tidy (evaluateWithin_tidy _)).restores context,
    fun context => (call.evaluateWith_tidy (evaluateWithin_tidy _)).quiet context⟩

/-- Evaluating an expression, testing a condition and running an armed call all leave the context
exactly as they found it, whatever they result in. Nothing is assumed about the context, and the
arguments of the call need not fit its parameters. -/
theorem evaluation_leaves_no_trace (context : Context) :
    (∀ expr : Expr, (expr.evaluate context).context = context) ∧
      (∀ condition : Condition, (condition.evaluate context).context = context) ∧
      (∀ call : ArmedCall, (call.evaluate context).context = context) :=
  ⟨fun expr => expr.evaluate_tidy.restores context,
    fun condition => condition.evaluate_tidy.restores context,
    fun call => call.evaluate_tidy.restores context⟩

end FrameLang
