import FrameLang.Program

/-!
Everything that a host can do with a program and its context, as data. Operations act on the context
alone and may hold bodies of further operations inside a scope; commands also act on the program.
Performing one keeps a record of the result and of the state afterwards, also for the operations of
a body.
-/

set_option autoImplicit false

namespace FrameLang

mutual

inductive Operation where
  | pushFrame (span : Span)
  | popFrame
  | bindVariable (name : Name) (value : Value)
  | unbindVariable (name : Name)
  | lookupVariable (name : Name)
  | bindFunction (function : Function)
  | unbindFunction (function : Function)
  | lookupFunction (name : Name) (arity : Nat)
  | evaluate (expr : Expr)
  /-- Evaluates a source text that holds a single expression. -/
  | evaluateText (source : String)
  | test (condition : Condition)
  | call (function : Function) (arguments : List Value) (span : Span)
  | within (scope : Scope) (body : Operations)

/-- The operations of a body, in order. A failure ends the body unless it is tolerated. -/
inductive Operations where
  | done
  | next (operation : Operation) (tolerated : Bool) (rest : Operations)

end

namespace Operation

/-- What an operation that succeeds yields. -/
inductive Answer where
  | unit
  | value (value : Value)
  | function (function : Function)
  | truth (truth : Bool)

end Operation

/-- The result of an operation, the context it left, the events, and the records of the operations
of its body that were performed. -/
structure Record where
  result : Except Error Operation.Answer
  context : Context
  events : List Event
  inner : List Record

/-- What came of a body: its result, the context it left, the events and the records. -/
structure BodyRecord where
  result : Except Error Unit
  context : Context
  events : List Event
  records : List Record

def Record.ofOutcome {α : Type} (answer : α → Operation.Answer) (outcome : Outcome α) : Record :=
  { result := outcome.result.map answer
    context := outcome.context
    events := outcome.events
    inner := [] }

/-- Evaluates a text that holds one expression and nothing else. -/
def evaluateText (source : String) : Action Value :=
  match parse source with
  | .ok [.expression expr] => expr.evaluate
  | .ok _ => Action.fail ⟨.stated .malformedProgram "expected a single expression", Span.empty⟩
  | .error error => Action.fail error

mutual

def Operation.perform : Operation → Context → Record
  | .pushFrame span, context => .ofOutcome (fun _ => .unit) (Context.pushFrame span context)
  | .popFrame, context => .ofOutcome (fun _ => .unit) (Context.popFrame context)
  | .bindVariable name value, context =>
    .ofOutcome (fun _ => .unit) (Context.bindVariable name value context)
  | .unbindVariable name, context => .ofOutcome .value (Context.unbindVariable name context)
  | .lookupVariable name, context => .ofOutcome .value (Context.lookupVariable name context)
  | .bindFunction function, context =>
    .ofOutcome (fun _ => .unit) (Context.bindFunction function context)
  | .unbindFunction function, context =>
    .ofOutcome .function (Context.unbindFunction function context)
  | .lookupFunction name arity, context =>
    .ofOutcome .function (Context.lookupFunction name arity context)
  | .evaluate expr, context => .ofOutcome .value (expr.evaluate context)
  | .evaluateText source, context => .ofOutcome .value (FrameLang.evaluateText source context)
  | .test condition, context => .ofOutcome .truth (condition.evaluate context)
  | .call function arguments span, context =>
    match function.arm arguments span with
    | .ok call => .ofOutcome .value (call.evaluate context)
    | .error error => .ofOutcome .value (Action.fail error context)
  | .within scope body, context =>
    let entered := scope.enter context
    match entered.result with
    | .error error =>
      { result := .error error, context := entered.context, events := entered.events, inner := [] }
    | .ok () =>
      let performed := body.perform entered.context
      let left := scope.leave context.upper.length performed.result performed.context
      { result := left.result.map (fun _ => .unit)
        context := left.context
        events := entered.events ++ (performed.events ++ left.events)
        inner := performed.records }

def Operations.perform : Operations → Context → BodyRecord
  | .done, context => { result := .ok (), context, events := [], records := [] }
  | .next operation tolerated rest, context =>
    let record := operation.perform context
    match record.result, tolerated with
    | .error error, false =>
      { result := .error error
        context := record.context
        events := record.events
        records := [record] }
    | _, _ =>
      let more := rest.perform record.context
      { result := more.result
        context := more.context
        events := record.events ++ more.events
        records := record :: more.records }

end

inductive Command where
  /-- Appends the declarations of a source text. -/
  | source (text : String)
  | extend (declarations : List Declaration)
  | step
  | drain
  | run
  | operate (operation : Operation)

namespace Command

inductive Answer where
  /-- The number of declarations that were appended. -/
  | appended (count : Nat)
  /-- What came of the next declaration, if there was one. -/
  | stepped (answer : Option (Option Value))
  | drained (answers : List Program.Answer)
  | ran
  | operated (answer : Operation.Answer)

/-- The result of a command, the program it left, the events, and the records of the body of an
operation. -/
structure Record where
  result : Except Error Answer
  program : Program
  events : List Event := []
  inner : List FrameLang.Record := []

def perform (program : Program) : Command → Record
  | source text =>
    match parse text with
    | .error error => { result := .error error, program }
    | .ok declarations =>
      { result := .ok (.appended declarations.length), program := program.extend declarations }
  | extend declarations =>
    { result := .ok (.appended declarations.length), program := program.extend declarations }
  | step =>
    match program.step with
    | none => { result := .ok (.stepped none), program }
    | some progress =>
      { result := progress.result.map (fun answer => .stepped (some answer))
        program := progress.program
        events := progress.events }
  | drain =>
    let progress := program.drain
    { result := .ok (.drained progress.result)
      program := progress.program
      events := progress.events }
  | run =>
    let progress := program.run
    { result := progress.result.map (fun _ => .ran)
      program := progress.program
      events := progress.events }
  | operate operation =>
    let record := operation.perform program.context
    { result := record.result.map .operated
      program := { program with context := record.context }
      events := record.events
      inner := record.inner }

/-- Performs commands one after another, going on after failures. -/
def performEach (program : Program) : List Command → List Record
  | [] => []
  | command :: rest =>
    let record := command.perform program
    record :: performEach record.program rest

end Command

end FrameLang
