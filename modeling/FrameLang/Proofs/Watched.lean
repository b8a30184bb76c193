import FrameLang.Evaluation

/-!
Evaluation under watch. A watched action is an action together with what is seen while it runs:
which expressions are taken up, and every elementary action with the contexts before and behind it.
What is seen has no gaps, and the events of the action are exactly those that are seen. Watching
evaluation changes nothing about it.
-/

set_option autoImplicit false

namespace FrameLang

/-!
## Sights
-/

inductive Sight where
  /-- The evaluation of an expression starts. -/
  | takesUp (expr : Expr) (context : Context)
  /-- An action leads from one context to another and reports events. -/
  | acts (before : Context) (events : List Event) (after : Context)

namespace Sight

def events : Sight → List Event
  | takesUp _ _ => []
  | acts _ events _ => events

def before : Sight → Context
  | takesUp _ context => context
  | acts before _ _ => before

def after : Sight → Context
  | takesUp _ context => context
  | acts _ _ after => after

/-- The first sight begins in the one context, each further sight begins where the one before it
ended, and the last one ends in the other context. -/
def Path (start : Context) : List Sight → Context → Prop
  | [], finish => finish = start
  | sight :: rest, finish => sight.before = start ∧ Path sight.after rest finish

theorem Path.append {start middle finish : Context} {first second : List Sight}
    (path : Path start first middle) (onwards : Path middle second finish) :
    Path start (first ++ second) finish := by
  induction first generalizing start with
  | nil =>
      cases path
      exact onwards
  | cons sight rest ih => exact ⟨path.1, ih path.2⟩

end Sight

/-!
## Watched actions
-/

/-- An action and what is seen of it, which accounts for all its events and for the way to the
context that it leaves. -/
structure Watched (α : Type) where
  act : Action α
  sights : Context → List Sight
  events_eq : ∀ context, (sights context).flatMap Sight.events = (act context).events
  path : ∀ context, Sight.Path context (sights context) (act context).context

namespace Watched

variable {α β : Type}

def done (value : α) : Watched α where
  act := pure value
  sights _ := []
  events_eq _ := rfl
  path _ := rfl

/-- What is seen of a sequence: the second action is not seen if the first one fails. -/
def sightsThen (first : Watched α) (next : α → Watched β) (context : Context) : List Sight :=
  first.sights context ++
    match (first.act context).result with
    | .ok value => (next value).sights (first.act context).context
    | .error _ => []

def andThen (first : Watched α) (next : α → Watched β) : Watched β where
  act := first.act >>= fun value => (next value).act
  sights := first.sightsThen next
  events_eq context := by
    rw [sightsThen, List.flatMap_append, first.events_eq]
    cases ended : (first.act context).result with
    | ok value =>
        rw [Action.bind_of_ok ended]
        exact congrArg (_ ++ ·) ((next value).events_eq _)
    | error error =>
        rw [Action.bind_of_error ended]
        exact List.append_nil _
  path context := by
    rw [sightsThen]
    refine (first.path context).append ?_
    cases ended : (first.act context).result with
    | ok value =>
        rw [Action.bind_of_ok ended]
        exact (next value).path _
    | error error =>
        rw [Action.bind_of_error ended]
        rfl

instance : Monad Watched where
  pure := done
  bind := andThen

/-- An elementary action is seen as a whole. -/
def step (action : Action α) : Watched α where
  act := action
  sights context := [.acts context (action context).events (action context).context]
  events_eq _ := List.append_nil _
  path _ := ⟨rfl, rfl⟩

/-- The start of an evaluation is seen. -/
def takeUp (expr : Expr) : Watched Unit where
  act := pure ()
  sights context := [.takesUp expr context]
  events_eq _ := rfl
  path _ := ⟨rfl, rfl⟩

def attempt (action : Watched α) : Watched (Except Error α) where
  act := Action.attempt action.act
  sights := action.sights
  events_eq := action.events_eq
  path := action.path

@[simp] theorem bind_act (first : Watched α) (next : α → Watched β) :
    (first >>= next).act = first.act >>= fun value => (next value).act := rfl

@[simp] theorem pure_act (value : α) : (pure value : Watched α).act = pure value := rfl

@[simp] theorem step_act (action : Action α) : (step action).act = action := rfl

@[simp] theorem attempt_act (action : Watched α) :
    (attempt action).act = Action.attempt action.act := rfl

theorem mem_sights_step {action : Action α} {context : Context} {sight : Sight} :
    sight ∈ (step action).sights context ↔
      sight = .acts context (action context).events (action context).context :=
  List.mem_singleton

theorem mem_sights_bind {first : Watched α} {next : α → Watched β} {context : Context}
    {sight : Sight} :
    sight ∈ (first >>= next).sights context ↔
      sight ∈ first.sights context ∨
        ∃ value, (first.act context).result = .ok value ∧
          sight ∈ (next value).sights (first.act context).context := by
  change sight ∈ first.sightsThen next context ↔ _
  rw [sightsThen, List.mem_append]
  cases (first.act context).result with
  | ok value => simp only [Except.ok.injEq, exists_eq_left']
  | error error => simp only [reduceCtorEq, false_and, exists_false, List.not_mem_nil]

/-- Behind an attempt the sequence always goes on. -/
theorem mem_sights_attempt_bind {action : Watched α} {next : Except Error α → Watched β}
    {context : Context} {sight : Sight} :
    sight ∈ (attempt action >>= next).sights context ↔
      sight ∈ action.sights context ∨
        sight ∈ (next (action.act context).result).sights (action.act context).context :=
  List.mem_append

/-!
## Scopes

Parameters are bound and taken back one by one. All other scopes take one write on the way in and
one on the way out.
-/

def unbindEach : List Name → Watched Unit
  | [] => pure ()
  | name :: rest => do
    let first ← attempt (step (Context.unbindVariable name))
    let others ← attempt (unbindEach rest)
    match first with
    | .ok _ => step (Action.ofExcept others)
    | .error error => step (Action.fail error)

def bindEach (bound : List Name) : List (Name × Value) → Watched Unit
  | [] => pure ()
  | (name, value) :: rest => do
    match ← attempt (step (Context.bindVariable name value)) with
    | .ok () => bindEach (name :: bound) rest
    | .error error =>
      let unwound ← attempt (unbindEach bound)
      step (Action.release (.error error) unwound)

def enter : Scope → Watched Unit
  | .arguments parameters values =>
    if parameters.length = values.length then bindEach [] (parameters.zip values)
    else step (Action.fail ⟨.parameterCount values.length parameters.length, Span.empty⟩)
  | scope => step scope.enter

def leave (outer : Nat) (result : Except Error α) : Scope → Watched α
  | .arguments parameters _ => do
    step (Action.release result (← attempt (unbindEach parameters.reverse)))
  | scope => step (scope.leave outer result)

def around (scope : Scope) (work : Watched α) : Watched α := do
  let outer := (← step Action.current).upper.length
  enter scope
  let result ← attempt work
  leave outer result scope

theorem unbindEach_act (names : List Name) : (unbindEach names).act = Context.unbindEach names := by
  induction names with
  | nil => rfl
  | cons name rest ih =>
      rw [unbindEach, Context.unbindEach]
      simp only [bind_act, attempt_act, step_act, ih]
      congr 1
      funext first
      congr 1
      funext others
      cases first <;> rfl

theorem bindEach_act (bound : List Name) (pairs : List (Name × Value)) :
    (bindEach bound pairs).act = Context.bindEach bound pairs := by
  induction pairs generalizing bound with
  | nil => rfl
  | cons pair rest ih =>
      obtain ⟨name, value⟩ := pair
      rw [bindEach, Context.bindEach]
      simp only [bind_act, attempt_act, step_act]
      congr 1
      funext first
      cases first with
      | ok value => exact ih (name :: bound)
      | error error =>
          simp only [bind_act, attempt_act, step_act, unbindEach_act]

theorem enter_act (scope : Scope) : (enter scope).act = scope.enter := by
  cases scope with
  | arguments parameters values =>
      rw [enter, Scope.enter]
      split
      · exact bindEach_act [] _
      · rfl
  | _ => rfl

theorem leave_act (outer : Nat) (result : Except Error α) (scope : Scope) :
    (leave outer result scope).act = scope.leave outer result := by
  cases scope with
  | arguments parameters values =>
      simp only [leave, Scope.leave, bind_act, attempt_act, step_act, unbindEach_act]
  | _ => rfl

theorem around_act (scope : Scope) (work : Watched α) :
    (around scope work).act = scope.around work.act := by
  simp only [around, Scope.around, bind_act, attempt_act, step_act, enter_act, leave_act]

/-!
## Evaluation
-/

variable (evaluate : Expr → Watched Value)

def call (call : ArmedCall) : Watched Value := do
  step (Action.emit (.callingFunction call.function (← step Action.current).callDepth call.span))
  let body := around (.arguments call.function.parameters call.arguments)
    (evaluate call.function.body)
  around (.call call.span)
    (if call.function.isLambda then body else around (.frame call.span) body)

def condition : Condition → Watched Bool
  | .truthy operand _ => do
    let value ← evaluate operand
    return value.isTruthy
  | .comparison op left right _ => do
    let leftValue ← evaluate left
    let rightValue ← evaluate right
    return op.holds leftValue rightValue

def each : List Expr → Watched (List Value)
  | [] => return []
  | argument :: rest => do
    let value ← evaluate argument
    let values ← each rest
    return value :: values

def node : Expr → Watched Value
  | .literal value => return value
  | .var name => step (Context.lookupVariable name)
  | .additive op left right span => do
    let leftValue ← evaluate left
    let rightValue ← evaluate right
    return ⟨op.apply leftValue rightValue, span⟩
  | .letIn name value body _ => do
    let bound ← evaluate value
    around (.var name bound) (evaluate body)
  | .lambda function usage _ => around (.function function) (evaluate usage)
  | .call name arguments span => do
    let function ← step (Context.lookupFunction name arguments.length)
    let values ← each evaluate arguments
    let armed ← step (Action.ofExcept (function.arm values span))
    call evaluate armed
  | .ifThenElse tested whenTrue whenFalse _ => do
    if ← condition evaluate tested then evaluate whenTrue else evaluate whenFalse

/-- Each evaluation is seen when it starts. -/
def within : Nat → Expr → Watched Value
  | 0, expr => step (Action.fail ⟨.budgetExhausted, expr.span⟩)
  | budget + 1, expr => do
    takeUp expr
    node (within budget) expr

theorem call_act (armed : ArmedCall) :
    (call evaluate armed).act = armed.evaluateWith fun expr => (evaluate expr).act := by
  simp only [call, ArmedCall.evaluateWith, bind_act, step_act, around_act]
  cases armed.function.isLambda with
  | true => simp only [↓reduceIte, around_act]
  | false => simp only [Bool.false_eq_true, ↓reduceIte, around_act]

theorem condition_act (tested : Condition) :
    (condition evaluate tested).act = tested.evaluateWith fun expr => (evaluate expr).act := by
  cases tested <;> rfl

theorem each_act (arguments : List Expr) :
    (each evaluate arguments).act = evaluateEach (fun expr => (evaluate expr).act) arguments := by
  induction arguments with
  | nil => rfl
  | cons argument rest ih => simp only [each, evaluateEach, bind_act, pure_act, ih]

theorem node_act (expr : Expr) :
    (node evaluate expr).act = expr.evaluateWith fun part => (evaluate part).act := by
  cases expr with
  | literal | var | additive => rfl
  | letIn name value body span => simp only [node, Expr.evaluateWith, bind_act, around_act]
  | lambda function usage span => simp only [node, Expr.evaluateWith, around_act]
  | call name arguments span =>
      simp only [node, Expr.evaluateWith, bind_act, step_act, each_act, call_act]
  | ifThenElse tested whenTrue whenFalse span =>
      simp only [node, Expr.evaluateWith, bind_act, condition_act]
      congr 1
      funext truth
      cases truth <;> rfl

theorem within_act (budget : Nat) (expr : Expr) :
    (within budget expr).act = evaluateWithin budget expr := by
  induction budget generalizing expr with
  | zero => rfl
  | succ budget ih =>
      change (node (within budget) expr).act = _
      rw [node_act, funext ih, evaluateWithin]

end Watched

/-- The evaluation of an expression under watch, with the budget that evaluation takes. -/
def Expr.watch (expr : Expr) : Watched Value where
  act := expr.evaluate
  sights context := (Watched.within (context.budget expr.height) expr).sights context
  events_eq context := by
    rw [Watched.events_eq, Watched.within_act]
    rfl
  path context := by
    have path := (Watched.within (context.budget expr.height) expr).path context
    rw [Watched.within_act] at path
    exact path

end FrameLang
