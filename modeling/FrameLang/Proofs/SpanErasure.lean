import FrameLang.Proofs.Agreement
import FrameLang.Proofs.ProgramState
import FrameLang.Proofs.Spans
import Mathlib.Data.List.Forall2

/-!
Spans are carried along and never read. A change of all spans, in the trees and in whatever a context
holds, commutes with evaluation: the rules derive the changed result from the changed premises. Two
runs that differ by spans alone become one and the same run when their spans are erased.
-/

set_option autoImplicit false

namespace FrameLang

/-!
## Changing the spans of a context and of a result
-/

def Error.mapSpan (f : Span → Span) (error : Error) : Error := ⟨error.cause, f error.span⟩

/-- The span of an error is changed, and what there is instead as given. -/
def mapResult {α : Type} (f : Span → Span) (change : α → α) : Except Error α → Except Error α
  | .ok value => .ok (change value)
  | .error error => .error (error.mapSpan f)

def Bindings.mapValues {κ ν : Type} (change : ν → ν) (bindings : Bindings κ ν) : Bindings κ ν :=
  ⟨bindings.entries.map (Prod.map id change)⟩

theorem Bindings.find?_mapValues {κ ν : Type} [DecidableEq κ] (change : ν → ν)
    (bindings : Bindings κ ν) (key : κ) :
    (bindings.mapValues change).find? key = (bindings.find? key).map change := by
  simp [find?, mapValues, List.find?_map, Function.comp_def]

def Frame.mapSpans (f : Span → Span) (frame : Frame) : Frame :=
  { vars := frame.vars.mapValues (Value.mapSpan f)
    functions := frame.functions.mapValues (Function.mapSpans f) }

def Context.mapSpans (f : Span → Span) (context : Context) : Context :=
  { context with base := context.base.mapSpans f, upper := context.upper.map (Frame.mapSpans f) }

def Layer.mapSpans (f : Span → Span) (layer : Layer) : Layer :=
  { vars := fun name => (layer.vars name).map (Value.mapSpan f)
    functions := fun signature => (layer.functions signature).map (Function.mapSpans f) }

def Environment.mapSpans (f : Span → Span) (environment : Environment) : Environment :=
  { environment with
    top := environment.top.mapSpans f, lower := environment.lower.map (Layer.mapSpans f) }

theorem Frame.layer_mapSpans (f : Span → Span) (frame : Frame) :
    (frame.mapSpans f).layer = frame.layer.mapSpans f := by
  unfold layer mapSpans Layer.mapSpans
  congr
  · exact funext (Bindings.find?_mapValues _ _)
  · exact funext (Bindings.find?_mapValues _ _)

theorem Context.environment_mapSpans (f : Span → Span) (context : Context) :
    (context.mapSpans f).environment = context.environment.mapSpans f := by
  obtain ⟨base, upper, callDepth, config⟩ := context
  cases upper with
  | nil => simp [environment, mapSpans, Environment.mapSpans, current, frames, limit,
      Frame.layer_mapSpans]
  | cons top lower => simp [environment, mapSpans, Environment.mapSpans, current, frames, limit,
      Frame.layer_mapSpans]

namespace Function

variable (f : Span → Span) (function : Function)

@[simp] theorem name_mapSpans : (function.mapSpans f).name = function.name.mapSpan f := by
  obtain ⟨name, parameters, body, isLambda, span⟩ := function
  rfl

@[simp] theorem parameters_mapSpans :
    (function.mapSpans f).parameters = function.parameters.map (Name.mapSpan f) := by
  obtain ⟨name, parameters, body, isLambda, span⟩ := function
  rfl

@[simp] theorem body_mapSpans : (function.mapSpans f).body = function.body.mapSpans f := by
  obtain ⟨name, parameters, body, isLambda, span⟩ := function
  rfl

@[simp] theorem isLambda_mapSpans : (function.mapSpans f).isLambda = function.isLambda := by
  obtain ⟨name, parameters, body, isLambda, span⟩ := function
  rfl

@[simp] theorem span_mapSpans : (function.mapSpans f).span = f function.span := by
  obtain ⟨name, parameters, body, isLambda, span⟩ := function
  rfl

@[simp] theorem arity_mapSpans : (function.mapSpans f).arity = function.arity := by
  rw [arity, parameters_mapSpans, List.length_map, arity]

@[simp] theorem signature_mapSpans : (function.mapSpans f).signature = function.signature := by
  rw [signature, arity_mapSpans, name_mapSpans, signature, Name.mapSpan]

end Function

theorem argumentsMapSpans_eq (f : Span → Span) (arguments : List Expr) :
    argumentsMapSpans f arguments = arguments.map (Expr.mapSpans f) := by
  induction arguments with
  | nil => rfl
  | cons argument rest ih => rw [argumentsMapSpans, ih, List.map_cons]

/-!
## The rules under a change of spans
-/

namespace Environment

variable (f : Span → Span) (environment : Environment)

theorem layers_mapSpans :
    (environment.mapSpans f).top :: (environment.mapSpans f).lower =
      (environment.top :: environment.lower).map (Layer.mapSpans f) := rfl

theorem value?_mapSpans (name : String) :
    (environment.mapSpans f).value? name = (environment.value? name).map (Value.mapSpan f) := by
  unfold value?
  rw [layers_mapSpans, List.findSome?_map, List.map_findSome?]
  rfl

theorem function?_mapSpans (signature : Signature) :
    (environment.mapSpans f).function? signature =
      (environment.function? signature).map (Function.mapSpans f) := by
  unfold function?
  rw [layers_mapSpans, List.findSome?_map, List.map_findSome?]
  rfl

theorem withVariable_mapSpans (name : String) (value : Value) :
    (environment.withVariable name value).mapSpans f =
      (environment.mapSpans f).withVariable name (value.mapSpan f) := by
  unfold withVariable mapSpans Layer.mapSpans
  simp only [apply_ite (Option.map (Value.mapSpan f)), Option.map_some]

theorem withFunction_mapSpans (function : Function) :
    (environment.withFunction function).mapSpans f =
      (environment.mapSpans f).withFunction (function.mapSpans f) := by
  unfold withFunction mapSpans Layer.mapSpans
  simp only [apply_ite (Option.map (Function.mapSpans f)), Option.map_some,
    Function.signature_mapSpans]

theorem withParameters_mapSpans (pairs : List (Name × Value)) :
    (environment.mapSpans f).withParameters
        (pairs.map (Prod.map (Name.mapSpan f) (Value.mapSpan f))) =
      mapResult f (mapSpans f) (environment.withParameters pairs) := by
  induction pairs generalizing environment with
  | nil => rfl
  | cons pair rest ih =>
      obtain ⟨name, value⟩ := pair
      have holds : (environment.mapSpans f).top.vars name.text =
          (environment.top.vars name.text).map (Value.mapSpan f) := rfl
      simp only [List.map_cons, Prod.map_apply, withParameters, Name.mapSpan, holds]
      cases environment.top.vars name.text with
      | some old => rfl
      | none =>
          rw [← withVariable_mapSpans]
          exact ih _

/-- The limits and the names alone decide whether a body is entered. -/
theorem callee_mapSpans (function : Function) (values : List Value) (span : Span) :
    (environment.mapSpans f).callee (function.mapSpans f) (values.map (Value.mapSpan f)) (f span) =
      mapResult f (mapSpans f) (environment.callee function values span) := by
  have depth : (environment.mapSpans f).depth = environment.depth := by
    simp [Environment.depth, mapSpans]
  have counted : (environment.mapSpans f).counted = environment.counted.mapSpans f := rfl
  have pushed : (environment.counted.mapSpans f).pushed = environment.counted.pushed.mapSpans f :=
    rfl
  simp only [callee, Function.parameters_mapSpans, Function.isLambda_mapSpans, List.zip_map, depth,
    counted, pushed, withParameters_mapSpans, apply_ite (mapResult f (mapSpans f))]
  rfl

end Environment

@[simp] theorem AdditiveOp.apply_mapSpan (op : AdditiveOp) (f : Span → Span) (left right : Value) :
    op.apply (left.mapSpan f) (right.mapSpan f) = op.apply left right := by
  cases op <;> rfl

@[simp] theorem Comparison.holds_mapSpan (op : Comparison) (f : Span → Span) (left right : Value) :
    op.holds (left.mapSpan f) (right.mapSpan f) = op.holds left right := by
  cases op <;> rfl

theorem length_argumentsMapSpans (f : Span → Span) (arguments : List Expr) :
    (argumentsMapSpans f arguments).length = arguments.length := by
  rw [argumentsMapSpans_eq, List.length_map]

theorem Environment.function?_call_mapSpans {environment : Environment} {name : Name}
    {arguments : List Expr} {found : Option Function} (f : Span → Span)
    (looksUp : environment.function? ⟨name.text, arguments.length⟩ = found) :
    (environment.mapSpans f).function?
        ⟨(name.mapSpan f).text, (argumentsMapSpans f arguments).length⟩ =
      found.map (Function.mapSpans f) := by
  rw [length_argumentsMapSpans, function?_mapSpans, ← looksUp]
  rfl

theorem Function.fits_mapSpans {function : Function} {values : List Value} (f : Span → Span)
    (fits : values.length = function.arity) :
    (values.map (Value.mapSpan f)).length = (function.mapSpans f).arity := by
  rw [List.length_map, function.arity_mapSpans, fits]

mutual

/-- One case for each rule: the changed premises derive the changed conclusion by the same rule. -/
theorem Evaluates.mapSpans (f : Span → Span) {environment : Environment} {expr : Expr}
    {result : Except Error Value} (rules : Evaluates environment expr result) :
    Evaluates (environment.mapSpans f) (expr.mapSpans f) (mapResult f (Value.mapSpan f) result) := by
  match rules with
  | .literal => exact .literal
  | .var found => exact .var ((environment.value?_mapSpans f _).trans (congrArg _ found))
  | .varUnknown missing =>
      exact .varUnknown ((environment.value?_mapSpans f _).trans (congrArg _ missing))
  | .additive onLeft onRight =>
      -- The rule names the sum of the changed values, which is that of the given ones.
      change Evaluates _ _ (.ok ⟨_, f _⟩)
      rw [← AdditiveOp.apply_mapSpan _ f]
      exact .additive (onLeft.mapSpans f) (onRight.mapSpans f)
  | .additiveLeft onLeft => exact .additiveLeft (onLeft.mapSpans f)
  | .additiveRight onLeft onRight => exact .additiveRight (onLeft.mapSpans f) (onRight.mapSpans f)
  | .letValue value => exact .letValue (value.mapSpans f)
  | .letTaken value taken =>
      exact .letTaken (value.mapSpans f) (congrArg (Option.map (Value.mapSpan f)) taken)
  | .letBody value fresh body =>
      have inside := body.mapSpans f
      rw [Environment.withVariable_mapSpans] at inside
      exact .letBody (value.mapSpans f) (congrArg (Option.map (Value.mapSpan f)) fresh) inside
  | @Evaluates.lambdaTaken _ function usage span old taken =>
      have holds := congrArg (Option.map (Function.mapSpans f)) taken
      have refused : Evaluates (environment.mapSpans f)
          (.lambda (function.mapSpans f) (usage.mapSpans f) (f span)) _ :=
        .lambdaTaken ((congrArg _ (function.signature_mapSpans f)).trans holds)
      rw [Function.name_mapSpans, Function.arity_mapSpans, Function.span_mapSpans] at refused
      exact refused
  | .lambdaUsage fresh usage =>
      have inside := usage.mapSpans f
      rw [Environment.withFunction_mapSpans] at inside
      have holds := congrArg (Option.map (Function.mapSpans f)) fresh
      exact .lambdaUsage ((congrArg _ (Function.signature_mapSpans f _)).trans holds) inside
  | .callUnknown missing =>
      refine length_argumentsMapSpans f _ ▸ .callUnknown ?_
      exact Environment.function?_call_mapSpans f missing
  | .callArgument found arguments =>
      exact .callArgument (Environment.function?_call_mapSpans f found) (arguments.mapSpans f)
  | @Evaluates.callMismatch _ name arguments span function values found each different =>
      rw [← function.arity_mapSpans f, ← List.length_map (Value.mapSpan f)] at different
      have refused : Evaluates (environment.mapSpans f)
          (.call (name.mapSpan f) (argumentsMapSpans f arguments) (f span)) _ :=
        .callMismatch (Environment.function?_call_mapSpans f found) (each.mapSpans f) different
      rw [Function.name_mapSpans, Function.arity_mapSpans, List.length_map] at refused
      exact refused
  | .callRefused found arguments fits refused =>
      refine .callRefused (Environment.function?_call_mapSpans f found) (arguments.mapSpans f)
        (Function.fits_mapSpans f fits) ?_
      rw [Environment.callee_mapSpans, refused]
      rfl
  | .callBody found arguments fits entered body =>
      refine .callBody (Environment.function?_call_mapSpans f found) (arguments.mapSpans f)
        (Function.fits_mapSpans f fits) ?_ (Function.body_mapSpans f _ ▸ body.mapSpans f)
      rw [Environment.callee_mapSpans, entered]
      rfl
  | .ifCondition condition => exact .ifCondition (condition.mapSpans f)
  | .ifTrue condition branch => exact .ifTrue (condition.mapSpans f) (branch.mapSpans f)
  | .ifFalse condition branch => exact .ifFalse (condition.mapSpans f) (branch.mapSpans f)

theorem EvaluatesEach.mapSpans (f : Span → Span) {environment : Environment}
    {arguments : List Expr} {result : Except Error (List Value)}
    (rules : EvaluatesEach environment arguments result) :
    EvaluatesEach (environment.mapSpans f) (argumentsMapSpans f arguments)
      (mapResult f (List.map (Value.mapSpan f)) result) := by
  match rules with
  | .nil => exact .nil
  | .cons first rest => exact .cons (first.mapSpans f) (rest.mapSpans f)
  | .head first => exact .head (first.mapSpans f)
  | .tail first rest => exact .tail (first.mapSpans f) (rest.mapSpans f)

theorem Tests.mapSpans (f : Span → Span) {environment : Environment} {condition : Condition}
    {result : Except Error Bool} (rules : Tests environment condition result) :
    Tests (environment.mapSpans f) (condition.mapSpans f) (mapResult f id result) := by
  match rules with
  | .truthy operand =>
      change Tests _ _ (.ok (Value.mapSpan f _).isTruthy)
      exact .truthy (operand.mapSpans f)
  | .truthyOperand operand => exact .truthyOperand (operand.mapSpans f)
  | .comparison onLeft onRight =>
      change Tests _ _ (.ok _)
      rw [id, ← Comparison.holds_mapSpan _ f]
      exact .comparison (onLeft.mapSpans f) (onRight.mapSpans f)
  | .comparisonLeft onLeft => exact .comparisonLeft (onLeft.mapSpans f)
  | .comparisonRight onLeft onRight =>
      exact .comparisonRight (onLeft.mapSpans f) (onRight.mapSpans f)

end

/-- Evaluation commutes with every change of the spans. -/
theorem Expr.evaluate_mapSpans (f : Span → Span) (expr : Expr) (context : Context) :
    ((expr.mapSpans f).evaluate (context.mapSpans f)).result =
      mapResult f (Value.mapSpan f) (expr.evaluate context).result :=
  ((expr.evaluate_evaluates context).mapSpans f).result_eq (context.environment_mapSpans f)

/-!
## Two runs
-/

/-- Every look-up finds in the one frame what it finds in the other, up to spans. -/
structure Frame.Alike (first second : Frame) : Prop where
  vars : ∀ name, (first.vars.find? name).map (Value.mapSpan Span.erase) =
    (second.vars.find? name).map (Value.mapSpan Span.erase)
  functions : ∀ signature, (first.functions.find? signature).map (Function.mapSpans Span.erase) =
    (second.functions.find? signature).map (Function.mapSpans Span.erase)

/-- The contexts are equal up to the spans inside their values and functions. -/
structure Context.Alike (first second : Context) : Prop where
  frames : List.Forall₂ Frame.Alike first.frames second.frames
  callDepth : first.callDepth = second.callDepth
  config : first.config = second.config

/-- The programs are equal up to the spans in their declarations and contexts. -/
structure Program.Alike (first second : Program) : Prop where
  declarations : first.declarations.map (Declaration.mapSpans Span.erase) =
    second.declarations.map (Declaration.mapSpans Span.erase)
  processed : first.processed = second.processed
  context : first.context.Alike second.context

/-- Both succeeded, with related values, or both failed, with the same kind and the same reason. -/
inductive AlikeResults {α : Type} (Related : α → α → Prop) :
    Except Error α → Except Error α → Prop where
  | ok {first second} : Related first second → AlikeResults Related (.ok first) (.ok second)
  | error {first second : Error} :
      first.kind = second.kind → first.reason = second.reason →
      AlikeResults Related (.error first) (.error second)

def Value.SameNumber (first second : Value) : Prop := first.number = second.number

theorem Frame.alike_iff {first second : Frame} :
    first.Alike second ↔
      first.layer.mapSpans Span.erase = second.layer.mapSpans Span.erase := by
  constructor
  · intro alike
    unfold Layer.mapSpans
    congr
    · exact funext alike.vars
    · exact funext alike.functions
  · intro same
    have vars := congrFun (congrArg Layer.vars same)
    have functions := congrFun (congrArg Layer.functions same)
    exact ⟨vars, functions⟩

namespace Context

theorem erased_layers (context : Context) :
    (context.environment.mapSpans Span.erase).top ::
        (context.environment.mapSpans Span.erase).lower =
      context.frames.map fun frame => frame.layer.mapSpans Span.erase := by
  rw [Environment.layers_mapSpans, environment_layers, List.map_map]
  rfl

/-- Contexts that are alike stand for one environment as soon as the spans are erased. -/
theorem alike_iff {first second : Context} :
    first.Alike second ↔
      first.environment.mapSpans Span.erase = second.environment.mapSpans Span.erase ∧
        first.config = second.config := by
  have layers : List.Forall₂ Frame.Alike first.frames second.frames ↔
      first.frames.map (fun frame => frame.layer.mapSpans Span.erase) =
        second.frames.map (fun frame => frame.layer.mapSpans Span.erase) := by
    have erased : Frame.Alike = fun one other =>
        one.layer.mapSpans Span.erase = other.layer.mapSpans Span.erase :=
      funext₂ fun one other => propext Frame.alike_iff
    rw [← List.forall₂_eq_eq_eq, List.forall₂_map_left_iff, List.forall₂_map_right_iff, erased]
  rw [← erased_layers, ← erased_layers] at layers
  constructor
  · intro alike
    obtain ⟨top, lower⟩ := List.cons.inj (layers.mp alike.frames)
    have limit : first.limit = second.limit := by rw [Context.limit, alike.config, Context.limit]
    have same := Environment.mk.injEq .. |>.mpr ⟨top, lower, alike.callDepth, limit⟩
    exact ⟨same, alike.config⟩
  · intro same
    obtain ⟨erased, config⟩ := same
    have frames := layers.mpr (by rw [erased])
    exact ⟨frames, congrArg Environment.calls erased, config⟩

theorem Alike.withFunction {first second : Context} (alike : first.Alike second)
    {one other : Function} (same : one.mapSpans Span.erase = other.mapSpans Span.erase) :
    (first.withFunction one).Alike (second.withFunction other) := by
  obtain ⟨erased, config⟩ := alike_iff.mp alike
  apply alike_iff.mpr
  constructor
  · rw [environment_withFunction, environment_withFunction, Environment.withFunction_mapSpans,
      Environment.withFunction_mapSpans, erased, same]
  · unfold Context.withFunction
    rw [config_mapCurrent, config_mapCurrent, config]

end Context

/-!
Evaluating expressions and processing declarations.
-/

theorem alikeResults_of_erased {α : Type} {erase : α → α} {Related : α → α → Prop}
    {first second : Except Error α}
    (same : mapResult Span.erase erase first = mapResult Span.erase erase second)
    (related : ∀ one other, erase one = erase other → Related one other) :
    AlikeResults Related first second := by
  cases first with
  | ok value =>
      cases second with
      | ok other => exact .ok (related value other (Except.ok.inj same))
      | error error => cases same
  | error error =>
      cases second with
      | ok value => cases same
      | error other =>
          have cause := congrArg Error.cause (Except.error.inj same)
          exact .error (congrArg Cause.kind cause) (congrArg Cause.reason cause)

theorem Expr.evaluate_alike {first second : Expr} {here there : Context}
    (same : first.mapSpans Span.erase = second.mapSpans Span.erase) (alike : here.Alike there) :
    AlikeResults Value.SameNumber (first.evaluate here).result (second.evaluate there).result ∧
      (first.evaluate here).context.Alike (second.evaluate there).context := by
  constructor
  · have stands : (here.mapSpans Span.erase).environment =
        (there.mapSpans Span.erase).environment := by
      rw [Context.environment_mapSpans, Context.environment_mapSpans,
        (Context.alike_iff.mp alike).1]
    have erased := (second.mapSpans Span.erase).result_eq_of_environment stands
    rw [← same, evaluate_mapSpans, same, evaluate_mapSpans] at erased
    apply alikeResults_of_erased erased
    intro one other equal
    have number := congrArg Value.number equal
    exact number
  · rw [first.evaluate_tidy.restores, second.evaluate_tidy.restores]
    exact alike

theorem AlikeResults.map {α β : Type} {Related : α → α → Prop} {Images : β → β → Prop}
    {change : α → β} {first second : Except Error α} (alike : AlikeResults Related first second)
    (images : ∀ one other, Related one other → Images (change one) (change other)) :
    AlikeResults Images (first.map change) (second.map change) := by
  cases alike with
  | ok related => exact .ok (images _ _ related)
  | error kind reason => exact .error kind reason

/-- Two answers with values of the same number, two without a value, or two errors that are alike. -/
def Program.AlikeAnswers : Program.Answer → Program.Answer → Prop :=
  AlikeResults (Option.Rel Value.SameNumber)

theorem Context.Alike.current {here there : Context} (alike : here.Alike there) :
    here.current.Alike there.current := by
  have top := congrArg Environment.top (alike_iff.mp alike).1
  exact Frame.alike_iff.mpr top

theorem Function.fields_of_erased {first second : Function}
    (same : first.mapSpans Span.erase = second.mapSpans Span.erase) :
    first.name.text = second.name.text ∧ first.arity = second.arity ∧
      first.isLambda = second.isLambda := by
  have names := congrArg name same
  have texts := congrArg Name.text names
  have arities := congrArg arity same
  have kinds := congrArg isLambda same
  simp only [name_mapSpans, arity_mapSpans, isLambda_mapSpans] at texts arities kinds
  exact ⟨texts, arities, kinds⟩

theorem Declaration.process_function_alike {first second : Function} {here there : Context}
    (same : first.mapSpans Span.erase = second.mapSpans Span.erase) (alike : here.Alike there) :
    Program.AlikeAnswers ((Declaration.function first).process here).result
        ((Declaration.function second).process there).result ∧
      ((Declaration.function first).process here).context.Alike
        ((Declaration.function second).process there).context := by
  obtain ⟨text, arity, kinds⟩ := Function.fields_of_erased same
  have signature : first.signature = second.signature := by
    rw [Function.signature, text, arity, Function.signature]
  -- Both are lambdas or neither is, and then the signature is taken in both contexts or in neither.
  cases isLambda : first.isLambda with
  | true =>
      rw [process_of_lambda isLambda, process_of_lambda (kinds ▸ isLambda), text]
      exact ⟨.error rfl rfl, alike⟩
  | false =>
      have held := alike.current.functions first.signature
      cases found : here.current.functions.find? first.signature with
      | some old =>
          rw [found] at held
          obtain ⟨other, taken, _⟩ := Option.map_eq_some_iff.mp held.symm
          rw [process_of_taken isLambda found,
            process_of_taken (kinds ▸ isLambda) (signature ▸ taken), text, arity]
          exact ⟨.error rfl rfl, alike⟩
      | none =>
          rw [found] at held
          have fresh := Option.map_eq_none_iff.mp held.symm
          rw [process_of_fresh isLambda found,
            process_of_fresh (kinds ▸ isLambda) (signature ▸ fresh)]
          exact ⟨.ok .none, alike.withFunction same⟩

theorem Declaration.process_alike {first second : Declaration} {here there : Context}
    (same : first.mapSpans Span.erase = second.mapSpans Span.erase) (alike : here.Alike there) :
    Program.AlikeAnswers (first.process here).result (second.process there).result ∧
      (first.process here).context.Alike (second.process there).context := by
  cases first with
  | expression one =>
      cases second with
      | function definition => cases same
      | expression other =>
          obtain ⟨results, _⟩ := one.evaluate_alike (Declaration.expression.inj same) alike
          obtain ⟨result, context⟩ := process_expression here one
          obtain ⟨result', context'⟩ := process_expression there other
          rw [result, result', context, context']
          exact ⟨results.map fun _ _ related => .some related, alike⟩
  | function one =>
      cases second with
      | expression expr => cases same
      | function other =>
          exact process_function_alike (Declaration.function.inj same) alike

/-!
## Two programs
-/

namespace Program

/-- Nothing came of either, or progress of both was alike. -/
inductive AlikeSteps : Option (Progress Answer) → Option (Progress Answer) → Prop where
  | none : AlikeSteps none none
  | some {first second} : AlikeAnswers first.result second.result →
      first.program.Alike second.program → AlikeSteps (some first) (some second)

theorem Alike.step {first second : Program} (alike : first.Alike second) :
    AlikeSteps first.step second.step := by
  have erased := congrArg (·[second.processed]?) alike.declarations
  simp only [List.getElem?_map] at erased
  unfold Program.step
  rw [alike.processed]
  cases here : first.declarations[second.processed]? with
  | none =>
      rw [here] at erased
      rw [Option.map_eq_none_iff.mp erased.symm]
      exact .none
  | some declaration =>
      rw [here] at erased
      obtain ⟨other, there, same⟩ := Option.map_eq_some_iff.mp erased.symm
      rw [there]
      obtain ⟨answers, contexts⟩ := Declaration.process_alike same.symm alike.context
      exact .some answers ⟨alike.declarations, rfl, contexts⟩

theorem Alike.drainWithin {first second : Program} (alike : first.Alike second) (count : Nat) :
    List.Forall₂ AlikeAnswers (drainWithin count first).result (drainWithin count second).result ∧
      (drainWithin count first).program.Alike (drainWithin count second).program := by
  induction count generalizing first second with
  | zero => exact ⟨.nil, alike⟩
  | succ count ih =>
      unfold Program.drainWithin
      have steps := alike.step
      generalize first.step = one at steps ⊢
      generalize second.step = other at steps ⊢
      cases steps with
      | none => exact ⟨.nil, alike⟩
      | some answers programs =>
          obtain ⟨later, arrive⟩ := ih programs
          exact ⟨.cons answers later, arrive⟩

end Program

/-- Expressions that are equal up to spans give values with the same number, or errors of the same
kind with the same reason, in contexts that are equal up to spans, and leave such contexts. Programs
that are equal up to spans do so step by step. -/
theorem spans_never_matter :
    (∀ (first second : Expr) (here there : Context),
      first.mapSpans Span.erase = second.mapSpans Span.erase → here.Alike there →
      AlikeResults Value.SameNumber (first.evaluate here).result (second.evaluate there).result ∧
        (first.evaluate here).context.Alike (second.evaluate there).context) ∧
    ∀ (first second : Program), first.Alike second →
      Program.AlikeSteps first.step second.step ∧
      ∀ count,
        List.Forall₂ Program.AlikeAnswers (first.drainWithin count).result
          (second.drainWithin count).result ∧
        (first.drainWithin count).program.Alike (second.drainWithin count).program := by
  refine ⟨fun first second here there same alike => Expr.evaluate_alike same alike, ?_⟩
  intro first second alike
  exact ⟨alike.step, alike.drainWithin⟩

/-- A context in which `x` is bound to two, a number read from the given place. -/
def Context.holdingTwo (span : Span) : Context :=
  { base := { vars := Bindings.insert {} "x" ⟨2, span⟩ } }

theorem Context.holdingTwo_alike (one other : Span) :
    (holdingTwo one).Alike (holdingTwo other) := by
  refine ⟨.cons ⟨?_, fun _ => rfl⟩ .nil, rfl, rfl⟩
  intro name
  change ((Bindings.insert {} "x" _).find? name).map _ = ((Bindings.insert {} "x" _).find? name).map _
  rw [Bindings.find?_insert, Bindings.find?_insert]
  split <;> rfl

theorem moved_variable_reads_two :
    AlikeResults Value.SameNumber
        ((Expr.var ⟨"x", ⟨0, 1, "x"⟩⟩).evaluate (Context.holdingTwo ⟨8, 9, "2"⟩)).result
        ((Expr.var (.bare "x")).evaluate (Context.holdingTwo Span.empty)).result ∧
      Program.AlikeSteps
        (Program.ofConfig {} [.expression (.var ⟨"x", ⟨0, 1, "x"⟩⟩)]).step
        (Program.ofConfig {} [.expression (.var (.bare "x"))]).step := by
  have alone := spans_never_matter.1 (.var ⟨"x", ⟨0, 1, "x"⟩⟩) (.var (.bare "x"))
    (Context.holdingTwo ⟨8, 9, "2"⟩) (Context.holdingTwo Span.empty) rfl
    (Context.holdingTwo_alike _ _)
  have stepped := spans_never_matter.2 (Program.ofConfig {} [.expression (.var ⟨"x", ⟨0, 1, "x"⟩⟩)])
    (Program.ofConfig {} [.expression (.var (.bare "x"))])
    ⟨rfl, rfl, Context.alike_iff.mpr ⟨rfl, rfl⟩⟩
  exact ⟨alone.1, stepped.1⟩

end FrameLang
