import FrameLang.Proofs.Schedules
import FrameLang.Proofs.Termination

/-!
The contexts that are passed on the way, and not just those that are handed back. Work brings about
some contexts by writes of its own and asks for other work in between: a scope has work inside it,
an evaluation asks for the parts of its node and for the bodies of called functions, a body consists
of operations. A moment is a context that the work itself brings about, or a moment of work that it
asks for. With it goes the number of calls that the work has opened and not yet closed.
-/

set_option autoImplicit false

namespace FrameLang

/-!
## Releases
-/

namespace Action

variable {α β : Type} (context : Context)

theorem ofExcept_context (result : Except Error α) :
    (ofExcept result context).context = context := by
  cases result <;> rfl

theorem release_context (result : Except Error α) (released : Except Error β) :
    (release result released context).context = context := by
  cases result <;> cases released <;> rfl

end Action

theorem Context.unbindEach_cons_context (context : Context) (name : Name) (rest : List Name) :
    (unbindEach (name :: rest) context).context =
      (unbindEach rest (unbindVariable name context).context).context := by
  simp only [unbindEach, Action.attempt_bind, Outcome.after]
  cases (unbindVariable name context).result with
  | ok value => exact Action.ofExcept_context ..
  | error error => rfl

namespace Scope

/-- The context that is left behind when the scope is. The result of the work inside does not
matter. -/
def released (outer : Nat) (context : Context) : Scope → Context
  | call _ => { context with callDepth := context.callDepth - 1 }
  | frame _ =>
    if context.frameDepth = outer + 2 then (Context.popFrame context).context
    else dropFramesAbove outer context
  | var name _ => (Context.unbindVariable name context).context
  | arguments parameters _ => (Context.unbindEach parameters.reverse context).context
  | function definition => (Context.unbindFunction definition context).context

theorem leave_context {α : Type} (scope : Scope) (outer : Nat) (result : Except Error α)
    (context : Context) :
    (scope.leave outer result context).context = scope.released outer context := by
  cases scope with
  | call span => exact Action.ofExcept_context ..
  | frame span =>
      change ((if _ then _ else _ : Action α) context).context = _
      rw [released]
      split
      · exact Action.release_context ..
      · exact Action.release_context ..
  | var name value => exact Action.release_context ..
  | arguments parameters values => exact Action.release_context ..
  | function definition => exact Action.release_context ..

end Scope

/-!
## Entries seen from behind
-/

theorem Context.withArguments_of_bindEach {context bound : Context}
    {pairs : List (Name × Value)} {events : List Event}
    (binds : bindEach [] pairs context = { result := .ok (), context := bound, events }) :
    context.withArguments pairs = .ok bound := by
  cases arrives : context.withArguments pairs with
  | ok inner =>
      have arrived := (bindEach_of_ok (.nil context) arrives).2.1
      rw [binds] at arrived
      exact congrArg Except.ok arrived.symm
  | error error =>
      have failed := (bindEach_of_error (.nil context) arrives).1
      rw [binds] at failed
      cases failed

theorem Scope.opened_of_enter {scope : Scope} {context entered : Context} {events : List Event}
    (enters : scope.enter context = { result := .ok (), context := entered, events }) :
    scope.opened context = .ok entered := by
  cases opens : scope.opened context with
  | ok inner =>
      have arrived := (enter_of_ok opens).2.1
      rw [enters] at arrived
      exact congrArg Except.ok arrived.symm
  | error error =>
      have failed := (enter_of_error opens).1
      rw [enters] at failed
      cases failed

/-!
## Bodies

A body ends with its first failure that is not tolerated, or goes on.
-/

theorem Operations.perform_next (operation : Operation) (tolerated : Bool) (rest : Operations)
    (context : Context) :
    let record := operation.perform context
    let more := rest.perform record.context
    (∃ error, record.result = .error error ∧
        (Operations.next operation tolerated rest).perform context =
          { result := .error error, context := record.context, events := record.events,
            records := [record] }) ∨
      ((tolerated = true ∨ ∃ answer, record.result = .ok answer) ∧
        (Operations.next operation tolerated rest).perform context =
          { result := more.result, context := more.context,
            events := record.events ++ more.events, records := record :: more.records }) := by
  intro record more
  cases ended : record.result with
  | ok answer =>
      refine .inr ⟨.inr ⟨answer, rfl⟩, ?_⟩
      simp only [Operations.perform, record, more, ended]
  | error error =>
      cases tolerated with
      | true =>
          refine .inr ⟨.inl rfl, ?_⟩
          simp only [Operations.perform, record, more, ended]
      | false =>
          refine .inl ⟨error, rfl, ?_⟩
          simp only [Operations.perform, record, ended]

theorem evaluateText_tidy (source : String) : (evaluateText source).Tidy := by
  rw [evaluateText]
  split
  next expr _ => exact expr.evaluate_tidy
  next => exact .fail _
  next error _ => exact .fail error

/-!
## Work
-/

/-- The number of calls that are in progress inside the scope and not around it. -/
def Scope.calls : Scope → Nat
  | call _ => 1
  | _ => 0

/-- The expressions that the node asks for in the context it is evaluated in. Evaluations hand their
context back, so each of them finds that context, whatever came before it. Whether it comes to the
later ones is left open. -/
def Expr.parts : Expr → List Expr
  | .literal _ => []
  | .var _ => []
  | .additive _ left right _ => [left, right]
  | .letIn _ value _ _ => [value]
  | .lambda _ _ _ => []
  | .call _ arguments _ => arguments
  | .ifThenElse condition whenTrue whenFalse _ => condition.operands ++ [whenTrue, whenFalse]

/-- Something that is done in a context. -/
inductive Work where
  | evaluate (expr : Expr)
  | operate (operation : Operation)
  | perform (body : Operations)
  | within (scope : Scope) (work : Work)

namespace Work

/-- The body of the called function, inside the scopes that the call opens. -/
def call (call : ArmedCall) : Work :=
  let body := within (.arguments call.function.parameters call.arguments)
    (evaluate call.function.body)
  within (.call call.span)
    (if call.function.isLambda then body else within (.frame call.span) body)

/-- The number of calls that the work opens around the work it asks for. -/
def calls : Work → Nat
  | within scope _ => scope.calls
  | _ => 0

/-- The context behind the work. -/
def leaves : Work → Context → Context
  | evaluate expr, context => (expr.evaluate context).context
  | operate operation, context => (operation.perform context).context
  | perform body, context => (body.perform context).context
  | within scope work, context =>
    let entered := scope.enter context
    match entered.result with
    | .error _ => entered.context
    | .ok () => scope.released context.upper.length (work.leaves entered.context)

theorem leaves_within_eq {scope : Scope} {work : Work} {context inner : Context}
    (opens : scope.opened context = .ok inner) :
    (within scope work).leaves context =
      scope.released context.upper.length (work.leaves inner) := by
  obtain ⟨succeeded, arrived, _⟩ := Scope.enter_of_ok opens
  rw [leaves]
  simp only [succeeded, arrived]

theorem leaves_within_of_error {scope : Scope} {work : Work} {context : Context} {error : Error}
    (refused : scope.opened context = .error error) : (within scope work).leaves context = context := by
  obtain ⟨failed, stayed, _⟩ := Scope.enter_of_error refused
  rw [leaves]
  simp only [failed, stayed]

theorem leaves_operate_within (scope : Scope) (body : Operations) (context : Context) :
    (operate (.within scope body)).leaves context = (within scope (perform body)).leaves context := by
  simp only [leaves, Operation.perform]
  cases (scope.enter context).result with
  | error error => rfl
  | ok _ => exact scope.leave_context ..

/-- The first work, done in the first context, has the second work done in the second context. -/
inductive Asks : Work → Context → Work → Context → Prop where
  | part {expr part context} :
      part ∈ expr.parts → Asks (evaluate expr) context (evaluate part) context
  | letBody {name value body span bound context} :
      (value.evaluate context).result = .ok bound →
      Asks (evaluate (.letIn name value body span)) context
        (within (.var name bound) (evaluate body)) context
  | usage {function usage span context} :
      Asks (evaluate (.lambda function usage span)) context
        (within (.function function) (evaluate usage)) context
  | called {name arguments span function values armed context} :
      context.findFunction? ⟨name.text, arguments.length⟩ = some function →
      (evaluateEach Expr.evaluate arguments context).result = .ok values →
      function.arm values span = .ok armed →
      Asks (evaluate (.call name arguments span)) context (call armed) context
  | inside {scope work context entered events} :
      scope.enter context = { result := .ok (), context := entered, events } →
      Asks (within scope work) context work entered
  | expression {expr context} :
      Asks (operate (.evaluate expr)) context (evaluate expr) context
  | text {source expr context} :
      parse source = .ok [.expression expr] →
      Asks (operate (.evaluateText source)) context (evaluate expr) context
  | operand {condition operand context} :
      operand ∈ condition.operands →
      Asks (operate (.test condition)) context (evaluate operand) context
  | armed {function arguments span armed context} :
      function.arm arguments span = .ok armed →
      Asks (operate (.call function arguments span)) context (call armed) context
  | body {scope body context} :
      Asks (operate (.within scope body)) context (within scope (perform body)) context
  | first {operation tolerated rest context} :
      Asks (perform (.next operation tolerated rest)) context (operate operation) context
  | rest {operation tolerated rest context} :
      tolerated = true ∨ (∃ answer, (operation.perform context).result = .ok answer) →
      Asks (perform (.next operation tolerated rest)) context
        (perform rest) (operation.perform context).context

/-- The work itself brings the context about. All but the scopes of arguments consist of at most one
write on the way in and one on the way out. -/
inductive Meets : Work → Context → Context → Prop where
  | start {work context} : Meets work context context
  | finish {work context} : Meets work context (work.leaves context)
  /-- Some of the parameters are bound, the others are not yet. -/
  | binding {parameters values work context bound events} (count : Nat) :
      parameters.length = values.length →
      Context.bindEach [] ((parameters.zip values).take count) context =
        { result := .ok (), context := bound, events } →
      Meets (within (.arguments parameters values) work) context bound
  /-- Some of these are unbound again, the newest first, because the next one is refused. -/
  | unwinding {parameters values work context bound events} (count undone : Nat) :
      parameters.length = values.length →
      Context.bindEach [] ((parameters.zip values).take count) context =
        { result := .ok (), context := bound, events } →
      Meets (within (.arguments parameters values) work) context
        (Context.unbindEach ((parameters.take count).reverse.take undone) bound).context
  /-- Some of the parameters are unbound behind the work, the others are not yet. -/
  | unbinding {parameters values work context entered events} (undone : Nat) :
      (Scope.arguments parameters values).enter context =
        { result := .ok (), context := entered, events } →
      Meets (within (.arguments parameters values) work) context
        (Context.unbindEach (parameters.reverse.take undone) (work.leaves entered)).context

/-- The context is passed while the work is done, at a moment when the work has the given number of
calls in progress. -/
inductive Passes : Work → Context → Nat → Context → Prop where
  | itself {work context state} :
      work.Meets context state → Passes work context 0 state
  | during {outer inner context start state opened} :
      Asks outer context inner start → Passes inner start opened state →
      Passes outer context (outer.calls + opened) state

/-- What every work keeps by its own writes, and hands on to the work it asks for, holds at every
moment. -/
theorem Passes.holds (Holds : Nat → Context → Prop)
    (meets : ∀ {work : Work} {context state : Context} {calls : Nat},
      work.Meets context state → Holds calls context → Holds calls state)
    (asks : ∀ {outer inner : Work} {context start : Context} {calls : Nat},
      Asks outer context inner start → Holds calls context → Holds (calls + outer.calls) start)
    {work : Work} {context state : Context} {opened calls : Nat}
    (passes : work.Passes context opened state) (holds : Holds calls context) :
    Holds (calls + opened) state := by
  induction passes generalizing calls with
  | itself met => exact meets met holds
  | during asked _ ih =>
      rw [← Nat.add_assoc]
      exact ih (asks asked holds)

end Work

/-!
## Commands
-/

namespace Command

/-- The command takes up the declaration when the steps before have led to the given program. -/
structure TakesUp (program : Program) (command : Command) (reached : Program)
    (declaration : Declaration) : Prop where
  steps : ∃ count, reached = (program.drainWithin count).program
  before : reached.processed < (command.perform program).program.processed
  next : reached.declarations[reached.processed]? = some declaration

/-- The program is passed while the command is performed, at a moment when the given number of calls
is in progress. A declaration counts as processed from the moment it is taken up. -/
inductive Passes (program : Program) : Command → Nat → Program → Prop where
  | start {command} : Passes program command 0 program
  | finish {command} : Passes program command 0 (command.perform program).program
  | reached {command reached declaration} :
      TakesUp program command reached declaration → Passes program command 0 reached
  | taken {command reached declaration} :
      TakesUp program command reached declaration →
      Passes program command 0 { reached with processed := reached.processed + 1 }
  | evaluating {command reached expr opened state} :
      TakesUp program command reached (.expression expr) →
      (Work.evaluate expr).Passes reached.context opened state →
      Passes program command opened
        { reached with processed := reached.processed + 1, context := state }
  | operating {operation opened state} :
      (Work.operate operation).Passes program.context opened state →
      Passes program (.operate operation) opened { program with context := state }

end Command

/-!
## Records

Every context that is recorded, of the operations of a body too, is that of a moment.
-/

/-- The context is the one behind the operation or behind an operation of its body. -/
inductive Record.Holds : Record → Context → Prop where
  | own {record} : Holds record record.context
  | inner {record inner state} : inner ∈ record.inner → Holds inner state → Holds record state

theorem Record.holds_iff {record : Record} {state : Context} :
    record.Holds state ↔ state = record.context ∨ ∃ inner ∈ record.inner, inner.Holds state := by
  constructor
  · intro holds
    cases holds with
    | own => exact .inl rfl
    | inner member holds => exact .inr ⟨_, member, holds⟩
  · rintro (rfl | ⟨inner, member, holds⟩)
    · exact .own
    · exact .inner member holds

mutual

theorem Operation.passes_of_holds (operation : Operation) {context state : Context}
    (holds : (operation.perform context).Holds state) :
    ∃ opened, (Work.operate operation).Passes context opened state := by
  rcases Record.holds_iff.mp holds with rfl | ⟨inner, member, innerHolds⟩
  · exact ⟨0, .itself .finish⟩
  cases operation with
  | within scope body =>
      simp only [Operation.perform] at member
      split at member
      next => cases member
      next entered =>
        obtain ⟨opened, passes⟩ := body.passes_of_holds member innerHolds
        have enters : scope.enter context =
            { result := .ok ()
              context := (scope.enter context).context
              events := (scope.enter context).events } := by
          rw [← entered]
        exact ⟨_, .during .body (.during (.inside enters) passes)⟩
  | call function arguments span =>
      simp only [Operation.perform] at member
      split at member <;> cases member
  | _ => cases member

theorem Operations.passes_of_holds (body : Operations) {context state : Context}
    {record : Record} (member : record ∈ (body.perform context).records)
    (holds : record.Holds state) : ∃ opened, (Work.perform body).Passes context opened state := by
  cases body with
  | done => cases member
  | next operation tolerated rest =>
      have first (same : record = operation.perform context) :
          ∃ opened, (Work.perform (.next operation tolerated rest)).Passes context opened state := by
        obtain ⟨opened, passes⟩ := operation.passes_of_holds (same ▸ holds)
        exact ⟨_, .during .first passes⟩
      obtain ⟨error, _, ends⟩ | ⟨goesOn, ends⟩ :=
        Operations.perform_next operation tolerated rest context
      · rw [ends] at member
        exact first (List.mem_singleton.mp member)
      · rw [ends] at member
        rcases List.mem_cons.mp member with same | later
        · exact first same
        · obtain ⟨opened, passes⟩ := rest.passes_of_holds later holds
          exact ⟨_, .during (.rest goesOn) passes⟩

end

theorem Command.passes_of_recorded {program : Program} {command : Command}
    {record : FrameLang.Record} {state : Context} (member : record ∈ (command.perform program).inner)
    (holds : record.Holds state) :
    ∃ calls, command.Passes program calls { program with context := state } := by
  cases command with
  | operate operation =>
      obtain ⟨calls, passes⟩ := operation.passes_of_holds (.inner member holds)
      exact ⟨calls, .operating passes⟩
  | source text =>
      simp only [perform] at member
      split at member <;> cases member
  | step =>
      simp only [perform] at member
      split at member <;> cases member
  | _ => cases member

end FrameLang
