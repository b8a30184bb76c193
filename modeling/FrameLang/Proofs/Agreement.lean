import FrameLang.Proofs.Environment
import FrameLang.Proofs.Recursion

/-!
The evaluator, which binds and unbinds in one context, and the rules, which only ever extend an
environment, give the same results. Every write of a scope is an extension of the environment that
the context stands for, and no release has to be accounted for.
-/

set_option autoImplicit false

namespace FrameLang

/-!
## The environment that a context stands for
-/

def Frame.layer (frame : Frame) : Layer := ⟨frame.vars.find?, frame.functions.find?⟩

namespace Context

def environment (context : Context) : Environment :=
  { top := context.current.layer
    lower := context.frames.tail.map Frame.layer
    calls := context.callDepth
    limit := context.limit }

variable (context : Context)

theorem environment_layers :
    context.environment.top :: context.environment.lower = context.frames.map Frame.layer := by
  rw [context.frames_eq]
  rfl

theorem environment_value? (name : String) :
    context.environment.value? name = context.findVariable? name := by
  rw [Environment.value?, environment_layers, List.findSome?_map, findVariable?, findInFrames?_eq]
  rfl

theorem environment_function? (signature : Signature) :
    context.environment.function? signature = context.findFunction? signature := by
  rw [Environment.function?, environment_layers, List.findSome?_map, findFunction?,
    findInFrames?_eq]
  rfl

theorem environment_depth : context.environment.depth = context.frameDepth := by
  simp [Environment.depth, environment, frames, frameDepth]

theorem environment_withVariable (name : String) (value : Value) :
    (context.withVariable name value).environment =
      context.environment.withVariable name value := by
  simp only [environment, withVariable, Environment.withVariable, current_mapCurrent,
    frames_mapCurrent, List.tail_cons, callDepth_mapCurrent, limit_mapCurrent, Frame.layer]
  congr
  exact funext (Bindings.find?_insert _ _ _)

theorem environment_withFunction (function : Function) :
    (context.withFunction function).environment = context.environment.withFunction function := by
  simp only [environment, withFunction, Environment.withFunction, current_mapCurrent,
    frames_mapCurrent, List.tail_cons, callDepth_mapCurrent, limit_mapCurrent, Frame.layer]
  congr
  exact funext (Bindings.find?_insert _ _ _)

theorem environment_withArguments (pairs : List (Name × Value)) :
    (context.withArguments pairs).map environment =
      context.environment.withParameters pairs := by
  induction pairs generalizing context with
  | nil => rfl
  | cons pair rest ih =>
      obtain ⟨name, value⟩ := pair
      have answers : context.environment.top.vars name.text =
          context.current.vars.find? name.text := rfl
      rw [withArguments, Environment.withParameters, answers]
      cases context.current.vars.find? name.text with
      | some old => rfl
      | none => exact (ih _).trans (by rw [environment_withVariable])

theorem environment_pushed : context.pushed.environment = context.environment.pushed := by
  rw [Environment.pushed, environment_layers]
  rfl

end Context

/-- The body of a called function is evaluated where the rules say it is. -/
theorem ArmedCall.environment_opened (context : Context) (call : ArmedCall)
    (fits : call.arguments.length = call.function.arity) :
    (call.opened context).map Context.environment =
      context.environment.callee call.function call.arguments call.span := by
  have binds (framed : Context) :
      ((Scope.arguments call.function.parameters call.arguments).opened framed).map
          Context.environment =
        framed.environment.withParameters (call.function.parameters.zip call.arguments) := by
    rw [Scope.opened, if_pos (by exact fits.symm), Context.environment_withArguments]
  rw [opened, Environment.callee, Scope.opened]
  by_cases deep : context.limit ≤ context.callDepth + 1
  · rw [if_pos deep, if_pos (by exact deep)]
    rfl
  rw [if_neg deep, if_neg (by exact deep)]
  change (call.framed context.counted >>= _).map _ = _
  rw [framed]
  by_cases isLambda : call.function.isLambda
  · rw [if_pos isLambda, if_pos isLambda]
    exact binds context.counted
  rw [if_neg isLambda, if_neg isLambda, Scope.opened, Context.environment_depth]
  by_cases full : context.limit ≤ context.frameDepth
  · rw [if_pos (by exact full), if_pos (by exact full)]
    rfl
  rw [if_neg (by exact full), if_neg (by exact full)]
  exact (binds context.counted.pushed).trans (by rw [Context.environment_pushed]; rfl)

/-!
## From the evaluator to the rules
-/

section Sound

variable {context : Context}

theorem evaluateEach_evaluatesEach {arguments : List Expr}
    (sound : ∀ argument ∈ arguments,
      Evaluates context.environment argument (argument.evaluate context).result) :
    EvaluatesEach context.environment arguments
      (evaluateEach Expr.evaluate arguments context).result := by
  induction arguments with
  | nil => exact .nil
  | cons argument rest ih =>
      have first := sound argument List.mem_cons_self
      have later := ih fun other member => sound other (List.mem_cons_of_mem argument member)
      rw [evaluateEach_cons_result]
      cases head : (argument.evaluate context).result with
      | error error => exact .head (head ▸ first)
      | ok value =>
          cases tail : (evaluateEach Expr.evaluate rest context).result with
          | error error => exact .tail (head ▸ first) (tail ▸ later)
          | ok values => exact .cons (head ▸ first) (tail ▸ later)

theorem Condition.evaluate_tests {condition : Condition}
    (sound : ∀ operand ∈ condition.operands,
      Evaluates context.environment operand (operand.evaluate context).result) :
    Tests context.environment condition (condition.evaluate context).result := by
  cases condition with
  | truthy operand span =>
      have tested := sound operand List.mem_cons_self
      rw [evaluate_truthy_result]
      cases ended : (operand.evaluate context).result with
      | error error => exact .truthyOperand (ended ▸ tested)
      | ok value => exact .truthy (ended ▸ tested)
  | comparison op left right span =>
      have first := sound left List.mem_cons_self
      have second := sound right (List.mem_cons_of_mem left List.mem_cons_self)
      rw [evaluate_comparison_result]
      cases onLeft : (left.evaluate context).result with
      | error error => exact .comparisonLeft (onLeft ▸ first)
      | ok leftValue =>
          cases onRight : (right.evaluate context).result with
          | error error => exact .comparisonRight (onLeft ▸ first) (onRight ▸ second)
          | ok rightValue => exact .comparison (onLeft ▸ first) (onRight ▸ second)

/-- A call goes wrong at the look-up, in an argument, in the number of arguments or at the entry of
the body, in this order. -/
theorem Expr.evaluate_call_evaluates {name : Name} {arguments : List Expr} {span : Span}
    (each : EvaluatesEach context.environment arguments
      (evaluateEach Expr.evaluate arguments context).result)
    (sound : ∀ (function : Function) (values : List Value) (inner : Context),
      context.findFunction? ⟨name.text, arguments.length⟩ = some function →
      ArmedCall.opened context ⟨function, values, span⟩ = .ok inner →
      Evaluates inner.environment function.body (function.body.evaluate inner).result) :
    Evaluates context.environment (.call name arguments span)
      ((Expr.call name arguments span).evaluate context).result := by
  rw [evaluate_call_result, Context.lookupFunction]
  split
  next function found =>
    have resolved := (context.environment_function? _).trans found
    change Evaluates _ _ (Except.bind (evaluateEach Expr.evaluate arguments context).result _)
    cases ended : (evaluateEach Expr.evaluate arguments context).result with
    | error error => exact .callArgument resolved (ended ▸ each)
    | ok values =>
        rw [ended] at each
        change Evaluates _ _ (Except.bind (function.arm values span) _)
        rw [Function.arm]
        split
        next fits =>
          have callee := ArmedCall.environment_opened context ⟨function, values, span⟩ fits
          change Evaluates _ _ (Except.bind (ArmedCall.opened context ⟨function, values, span⟩) _)
          cases opens : ArmedCall.opened context ⟨function, values, span⟩ with
          | error error =>
              rw [opens] at callee
              exact .callRefused resolved each fits callee.symm
          | ok inner =>
              rw [opens] at callee
              exact .callBody resolved each fits callee.symm (sound _ _ _ found opens)
        next different => exact .callMismatch resolved each different
  next missing => exact .callUnknown ((context.environment_function? _).trans missing)

end Sound

theorem Expr.evaluate_evaluates (expr : Expr) (context : Context) :
    Evaluates context.environment expr (expr.evaluate context).result := by
  suffices sound : ∀ task : Task,
      Evaluates task.context.environment task.expr (task.expr.evaluate task.context).result from
    sound ⟨expr, context⟩
  intro task
  -- Not on the tree: the body of a called function is no part of the call.
  induction task using Task.wellFounded_invokes.induction with
  | _ task ih =>
  obtain ⟨expr, context⟩ := task
  cases expr with
  | literal value =>
      rw [evaluate_literal_result]
      exact .literal
  | var name =>
      rw [evaluate_var_result, Context.lookupVariable]
      split
      next value found => exact .var (by rw [Context.environment_value?, found])
      next missing => exact .varUnknown (by rw [Context.environment_value?, missing])
  | additive op left right span =>
      have first := ih _ .left
      have second := ih _ .right
      rw [evaluate_additive_result]
      cases onLeft : (left.evaluate context).result with
      | error error => exact .additiveLeft (onLeft ▸ first)
      | ok leftValue =>
          cases onRight : (right.evaluate context).result with
          | error error => exact .additiveRight (onLeft ▸ first) (onRight ▸ second)
          | ok rightValue => exact .additive (onLeft ▸ first) (onRight ▸ second)
  | letIn name value body span =>
      have first := ih _ .letValue
      rw [evaluate_letIn_result]
      cases bindsTo : (value.evaluate context).result with
      | error error => exact .letValue (bindsTo ▸ first)
      | ok bound =>
          change Evaluates _ _ (Except.bind ((Scope.var name bound).opened context) _)
          cases found : context.current.vars.find? name.text with
          | some old =>
              rw [Scope.opened_var_error_iff.mpr ⟨⟨old, found⟩, rfl⟩]
              exact .letTaken (bindsTo ▸ first) found
          | none =>
              have opens : (Scope.var name bound).opened context = .ok _ :=
                Scope.opened_var_ok_iff.mpr ⟨found, rfl⟩
              rw [opens]
              refine .letBody (bindsTo ▸ first) found ?_
              exact context.environment_withVariable name.text bound ▸ ih _ (.letBody opens)
  | lambda function usage span =>
      rw [evaluate_lambda_result]
      cases found : context.current.functions.find? function.signature with
      | some old =>
          rw [Scope.opened_function_error_iff.mpr ⟨⟨old, found⟩, rfl⟩]
          exact .lambdaTaken found
      | none =>
          have opens := Scope.opened_function_ok_iff.mpr ⟨found, rfl⟩
          rw [opens]
          refine .lambdaUsage found ?_
          exact context.environment_withFunction function ▸ ih _ (.usage opens)
  | call name arguments span =>
      have each := evaluateEach_evaluatesEach fun argument member => ih _ (.argument member)
      exact evaluate_call_evaluates each fun function values inner found opens =>
        ih _ (.body found opens)
  | ifThenElse condition whenTrue whenFalse span =>
      have tested := Condition.evaluate_tests fun operand member => ih _ (.operand member)
      rw [evaluate_ifThenElse_result]
      cases ended : (condition.evaluate context).result with
      | error error => exact .ifCondition (ended ▸ tested)
      | ok truth =>
          cases truth with
          | true => exact .ifTrue (ended ▸ tested) (ih _ .whenTrue)
          | false => exact .ifFalse (ended ▸ tested) (ih _ .whenFalse)

/-!
## From the rules to the evaluator
-/

theorem ArmedCall.opened_of_callee_error {context : Context} (call : ArmedCall) {error : Error}
    (fits : call.arguments.length = call.function.arity)
    (refused : context.environment.callee call.function call.arguments call.span = .error error) :
    call.opened context = .error error := by
  rw [← environment_opened context call fits] at refused
  cases opens : call.opened context with
  | error other =>
      rw [opens] at refused
      cases refused
      rfl
  | ok inner =>
      rw [opens] at refused
      cases refused

theorem ArmedCall.opened_of_callee_ok {context : Context} (call : ArmedCall) {body : Environment}
    (fits : call.arguments.length = call.function.arity)
    (entered : context.environment.callee call.function call.arguments call.span = .ok body) :
    ∃ inner, call.opened context = .ok inner ∧ inner.environment = body := by
  rw [← environment_opened context call fits] at entered
  cases opens : call.opened context with
  | error error =>
      rw [opens] at entered
      cases entered
  | ok inner =>
      rw [opens] at entered
      cases entered
      exact ⟨inner, rfl, rfl⟩

mutual

/-- A result that the rules give in an environment is the result in every context that stands for
it. The recursion is on the derivation. -/
theorem Evaluates.result_eq {environment : Environment} {expr : Expr}
    {result : Except Error Value} (rules : Evaluates environment expr result) {context : Context}
    (stands : context.environment = environment) : (expr.evaluate context).result = result := by
  -- `match`, because the recursion through `cases` is not seen to be structural.
  match rules with
  | .literal => rw [Expr.evaluate_literal_result]
  | .var found =>
      rw [← stands, Context.environment_value?] at found
      rw [Expr.evaluate_var_result, Context.lookupVariable, found]
      rfl
  | .varUnknown missing =>
      rw [← stands, Context.environment_value?] at missing
      rw [Expr.evaluate_var_result, Context.lookupVariable, missing]
      rfl
  | .additive onLeft onRight =>
      rw [Expr.evaluate_additive_result, onLeft.result_eq stands, onRight.result_eq stands]
      rfl
  | .additiveLeft onLeft =>
      rw [Expr.evaluate_additive_result, onLeft.result_eq stands]
      rfl
  | .additiveRight onLeft onRight =>
      rw [Expr.evaluate_additive_result, onLeft.result_eq stands, onRight.result_eq stands]
      rfl
  | .letValue value =>
      rw [Expr.evaluate_letIn_result, value.result_eq stands]
      rfl
  | .letTaken value taken =>
      rw [← stands] at taken
      rw [Expr.evaluate_letIn_result, value.result_eq stands]
      change ((Scope.var _ _).opened context >>= _) = _
      rw [Scope.opened_var_error_iff.mpr ⟨⟨_, taken⟩, rfl⟩]
      rfl
  | .letBody value fresh body =>
      rw [← stands] at fresh
      rw [Expr.evaluate_letIn_result, value.result_eq stands]
      change ((Scope.var _ _).opened context >>= _) = _
      rw [Scope.opened_var_ok_iff.mpr ⟨fresh, rfl⟩]
      exact body.result_eq (by rw [Context.environment_withVariable, stands])
  | .lambdaTaken taken =>
      rw [← stands] at taken
      rw [Expr.evaluate_lambda_result, Scope.opened_function_error_iff.mpr ⟨⟨_, taken⟩, rfl⟩]
      rfl
  | .lambdaUsage fresh usage =>
      rw [← stands] at fresh
      rw [Expr.evaluate_lambda_result, Scope.opened_function_ok_iff.mpr ⟨fresh, rfl⟩]
      exact usage.result_eq (by rw [Context.environment_withFunction, stands])
  | .callUnknown missing =>
      rw [← stands, Context.environment_function?] at missing
      rw [Expr.evaluate_call_result, Context.lookupFunction, missing]
      rfl
  | .callArgument found arguments =>
      rw [← stands, Context.environment_function?] at found
      rw [Expr.evaluate_call_result, Context.lookupFunction, found, arguments.result_eq stands]
      rfl
  | .callMismatch found arguments different =>
      rw [← stands, Context.environment_function?] at found
      rw [Expr.evaluate_call_result, Context.lookupFunction, found, arguments.result_eq stands]
      change (Function.arm _ _ _ >>= _) = _
      rw [Function.arm, if_neg different]
      rfl
  | .callRefused found arguments fits refused =>
      rw [← stands, Context.environment_function?] at found
      rw [Expr.evaluate_call_result, Context.lookupFunction, found, arguments.result_eq stands]
      change (Function.arm _ _ _ >>= _) = _
      rw [Function.arm, if_pos fits]
      change (ArmedCall.opened context ⟨_, _, _⟩ >>= _) = _
      rw [ArmedCall.opened_of_callee_error ⟨_, _, _⟩ fits (stands ▸ refused)]
      rfl
  | .callBody found arguments fits entered body =>
      rw [← stands, Context.environment_function?] at found
      rw [Expr.evaluate_call_result, Context.lookupFunction, found, arguments.result_eq stands]
      change (Function.arm _ _ _ >>= _) = _
      rw [Function.arm, if_pos fits]
      change (ArmedCall.opened context ⟨_, _, _⟩ >>= _) = _
      obtain ⟨inner, opens, sameBody⟩ :=
        ArmedCall.opened_of_callee_ok ⟨_, _, _⟩ fits (stands ▸ entered)
      rw [opens]
      exact body.result_eq sameBody
  | .ifCondition condition =>
      rw [Expr.evaluate_ifThenElse_result, condition.result_eq stands]
      rfl
  | .ifTrue condition branch =>
      rw [Expr.evaluate_ifThenElse_result, condition.result_eq stands]
      exact branch.result_eq stands
  | .ifFalse condition branch =>
      rw [Expr.evaluate_ifThenElse_result, condition.result_eq stands]
      exact branch.result_eq stands

theorem EvaluatesEach.result_eq {environment : Environment} {arguments : List Expr}
    {result : Except Error (List Value)} (rules : EvaluatesEach environment arguments result)
    {context : Context} (stands : context.environment = environment) :
    (evaluateEach Expr.evaluate arguments context).result = result := by
  match rules with
  | .nil => rfl
  | .cons first rest =>
      rw [evaluateEach_cons_result, first.result_eq stands, rest.result_eq stands]
      rfl
  | .head first =>
      rw [evaluateEach_cons_result, first.result_eq stands]
      rfl
  | .tail first rest =>
      rw [evaluateEach_cons_result, first.result_eq stands, rest.result_eq stands]
      rfl

theorem Tests.result_eq {environment : Environment} {condition : Condition}
    {result : Except Error Bool} (rules : Tests environment condition result) {context : Context}
    (stands : context.environment = environment) :
    (condition.evaluate context).result = result := by
  match rules with
  | .truthy operand =>
      rw [Condition.evaluate_truthy_result, operand.result_eq stands]
      rfl
  | .truthyOperand operand =>
      rw [Condition.evaluate_truthy_result, operand.result_eq stands]
      rfl
  | .comparison onLeft onRight =>
      rw [Condition.evaluate_comparison_result, onLeft.result_eq stands, onRight.result_eq stands]
      rfl
  | .comparisonLeft onLeft =>
      rw [Condition.evaluate_comparison_result, onLeft.result_eq stands]
      rfl
  | .comparisonRight onLeft onRight =>
      rw [Condition.evaluate_comparison_result, onLeft.result_eq stands, onRight.result_eq stands]
      rfl

end

/-- Contexts that stand for one environment give one result. -/
theorem Expr.result_eq_of_environment (expr : Expr) {here there : Context}
    (same : here.environment = there.environment) :
    (expr.evaluate here).result = (expr.evaluate there).result :=
  (expr.evaluate_evaluates there).result_eq same

/-- The evaluator binds and unbinds, pushes and pops in the one context it is given. Its result is
the one that the rules derive, which do nothing of the kind. -/
theorem evaluate_result_iff_evaluates (expr : Expr) (context : Context)
    (result : Except Error Value) :
    (expr.evaluate context).result = result ↔ Evaluates context.environment expr result := by
  constructor
  · intro evaluated
    exact evaluated ▸ expr.evaluate_evaluates context
  · intro rules
    exact rules.result_eq rfl

end FrameLang
