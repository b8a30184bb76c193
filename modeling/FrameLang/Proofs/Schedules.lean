import FrameLang.Proofs.Opening
import FrameLang.Session

/-!
Processing declarations one after another. What a program has done is fixed by the declarations it
has processed: how they were handed over, and by which calls they were processed, leaves no mark on
the answers or on the context. A program is therefore described by three things, the context it
started from, the declarations behind it and those ahead of it.
-/

set_option autoImplicit false

namespace FrameLang

/-!
## Single declarations
-/

/-- All that can become of a function: lambdas and taken signatures are refused. -/
theorem Declaration.process_function (definition : Function) (context : Context) :
    let outcome := (Declaration.function definition).process context
    (definition.isLambda = true ∧
        outcome =
          { result := .error ⟨.lambdaAtTopLevel definition.name.text, definition.span⟩, context }) ∨
      (definition.isLambda = false ∧
        (∃ old, context.current.functions.find? definition.signature = some old) ∧
        outcome =
          { result := .error ⟨.functionDefined definition.name.text definition.arity,
              definition.span⟩, context }) ∨
      (definition.isLambda = false ∧
        context.current.functions.find? definition.signature = none ∧
        outcome =
          { result := .ok none, context := context.withFunction definition,
            events := [.registeredFunction definition] }) := by
  intro outcome
  cases isLambda : definition.isLambda with
  | true =>
      refine .inl ⟨rfl, ?_⟩
      simp only [outcome, process, isLambda, if_true]
      rfl
  | false =>
      simp only [outcome, process, isLambda, Bool.false_eq_true, if_false]
      cases found : context.current.functions.find? definition.signature with
      | some old =>
          refine .inr (.inl ⟨trivial, ⟨old, rfl⟩, ?_⟩)
          have refused := Context.bindFunction_of_taken found
          rw [Action.bind_of_error (congrArg Outcome.result refused), refused]
      | none =>
          refine .inr (.inr ⟨trivial, rfl, ?_⟩)
          have bound := Context.bindFunction_of_fresh found
          rw [Action.bind_of_ok (congrArg Outcome.result bound), bound]
          rfl

section Function

variable {definition : Function} {context : Context}

theorem Declaration.process_of_lambda (isLambda : definition.isLambda = true) :
    (Declaration.function definition).process context =
      { result := .error ⟨.lambdaAtTopLevel definition.name.text, definition.span⟩, context } := by
  obtain ⟨_, refused⟩ | ⟨named, _⟩ | ⟨named, _⟩ := process_function definition context
  · exact refused
  · cases isLambda.symm.trans named
  · cases isLambda.symm.trans named

theorem Declaration.process_of_taken (named : definition.isLambda = false) {old : Function}
    (taken : context.current.functions.find? definition.signature = some old) :
    (Declaration.function definition).process context =
      { result := .error ⟨.functionDefined definition.name.text definition.arity,
          definition.span⟩, context } := by
  obtain ⟨isLambda, _⟩ | ⟨_, _, refused⟩ | ⟨_, fresh, _⟩ := process_function definition context
  · cases isLambda.symm.trans named
  · exact refused
  · cases taken.symm.trans fresh

theorem Declaration.process_of_fresh (named : definition.isLambda = false)
    (fresh : context.current.functions.find? definition.signature = none) :
    (Declaration.function definition).process context =
      { result := .ok none, context := context.withFunction definition,
        events := [.registeredFunction definition] } := by
  obtain ⟨isLambda, _⟩ | ⟨_, ⟨old, taken⟩, _⟩ | ⟨_, _, bound⟩ := process_function definition context
  · cases isLambda.symm.trans named
  · cases taken.symm.trans fresh
  · exact bound

end Function

/-!
## Rows of declarations
-/

namespace Context

/-- The context behind declarations that were processed in it, failing ones included. -/
def after (context : Context) (declarations : List Declaration) : Context :=
  declarations.foldl (fun context declaration => (declaration.process context).context) context

/-- What comes of declarations that are processed one after another. -/
def answers (context : Context) : List Declaration → List Program.Answer
  | [] => []
  | declaration :: rest =>
    (declaration.process context).result :: (declaration.process context).context.answers rest

variable (context : Context)

@[simp] theorem after_nil : context.after [] = context := rfl

@[simp] theorem after_cons (declaration : Declaration) (rest : List Declaration) :
    context.after (declaration :: rest) = (declaration.process context).context.after rest := rfl

theorem after_append (first second : List Declaration) :
    context.after (first ++ second) = (context.after first).after second :=
  List.foldl_append

theorem answers_append (first second : List Declaration) :
    context.answers (first ++ second) =
      context.answers first ++ (context.after first).answers second := by
  induction first generalizing context with
  | nil => rfl
  | cons declaration rest ih =>
      rw [List.cons_append, answers, answers, after_cons, List.cons_append, ih]

@[simp] theorem length_answers (declarations : List Declaration) :
    (context.answers declarations).length = declarations.length := by
  induction declarations generalizing context with
  | nil => rfl
  | cons declaration rest ih => simp [answers, ih]

end Context

/-!
## Programs under way
-/

namespace Program

/-- The program that has processed the declarations of `behind` and waits for those of `ahead`. -/
def underWay (start : Context) (behind ahead : List Declaration) : Program :=
  { declarations := behind ++ ahead
    processed := behind.length
    context := start.after behind }

section UnderWay

variable (start : Context) (behind ahead : List Declaration)

@[simp] theorem pending_underWay : (underWay start behind ahead).pending = ahead.length := by
  simp [pending, underWay]

theorem extend_underWay (more : List Declaration) :
    (underWay start behind ahead).extend more = underWay start behind (ahead ++ more) := by
  simp [extend, underWay]

theorem step_underWay_nil : (underWay start behind []).step = none := by
  simp [step, underWay]

/-- A step moves one declaration from what is ahead to what is behind. -/
theorem step_underWay_cons (declaration : Declaration) :
    (underWay start behind (declaration :: ahead)).step =
      some { result := (declaration.process (start.after behind)).result
             program := underWay start (behind ++ [declaration]) ahead
             events := (declaration.process (start.after behind)).events } := by
  simp [step, underWay, Context.after_append]

theorem drainWithin_underWay (count : Nat) :
    (drainWithin count (underWay start behind ahead)).result =
        (start.after behind).answers (ahead.take count) ∧
      (drainWithin count (underWay start behind ahead)).program =
        underWay start (behind ++ ahead.take count) (ahead.drop count) := by
  induction count generalizing behind ahead with
  | zero => simp [drainWithin, Context.answers]
  | succ count ih =>
      cases ahead with
      | nil => simp [drainWithin, step_underWay_nil, Context.answers]
      | cons declaration rest =>
          obtain ⟨answers, arrives⟩ := ih (behind ++ [declaration]) rest
          rw [Context.after_append] at answers
          simp only [drainWithin, step_underWay_cons, answers, arrives, List.take_succ_cons,
            List.drop_succ_cons, List.append_assoc, List.singleton_append]
          exact ⟨rfl, trivial⟩

theorem drain_underWay :
    (underWay start behind ahead).drain.result = (start.after behind).answers ahead ∧
      (underWay start behind ahead).drain.program = underWay start (behind ++ ahead) [] := by
  have drained := drainWithin_underWay start behind ahead ahead.length
  rw [List.take_length, List.drop_length] at drained
  rwa [drain, pending_underWay]

end UnderWay

/-- What a run processed, and with which result: everything that was ahead, without a failure, or
as much of it as ends with the first failure. -/
inductive Ran (context : Context) (ahead : List Declaration) :
    List Declaration → List Declaration → Except Error Unit → Prop where
  | completed (values : List (Option Value)) :
      context.answers ahead = values.map .ok → Ran context ahead ahead [] (.ok ())
  | stopped {processed rest} (values : List (Option Value)) (error : Error) :
      ahead = processed ++ rest → context.answers processed = values.map .ok ++ [.error error] →
      Ran context ahead processed rest (.error error)

theorem Ran.parts {context : Context} {ahead processed rest : List Declaration}
    {result : Except Error Unit} (ran : Ran context ahead processed rest result) :
    ahead = processed ++ rest := by
  cases ran with
  | completed => rw [List.append_nil]
  | stopped _ _ parts _ => exact parts

theorem Ran.cons {context : Context} {declaration : Declaration} {value : Option Value}
    {ahead processed rest : List Declaration} {result : Except Error Unit}
    (succeeded : (declaration.process context).result = .ok value)
    (ran : Ran (declaration.process context).context ahead processed rest result) :
    Ran context (declaration :: ahead) (declaration :: processed) rest result := by
  cases ran with
  | completed values answers =>
      refine .completed (value :: values) ?_
      rw [Context.answers, answers, succeeded, List.map_cons]
  | stopped values error parts answers =>
      refine .stopped (value :: values) error (by rw [parts, List.cons_append]) ?_
      rw [Context.answers, answers, succeeded, List.map_cons, List.cons_append]

/-- The induction is on the steps that a run may take. They suffice for what is ahead. -/
theorem runWithin_underWay (start : Context) (behind ahead : List Declaration) {count : Nat}
    (enough : ahead.length ≤ count) :
    ∃ processed rest,
      Ran (start.after behind) ahead processed rest
          (runWithin count (underWay start behind ahead)).result ∧
        (runWithin count (underWay start behind ahead)).program =
          underWay start (behind ++ processed) rest := by
  induction count generalizing behind ahead with
  | zero =>
      cases List.eq_nil_of_length_eq_zero (Nat.le_zero.mp enough)
      exact ⟨[], [], .completed [] rfl, by simp [runWithin]⟩
  | succ count ih =>
      cases ahead with
      | nil =>
          simp only [runWithin, step_underWay_nil]
          exact ⟨[], [], .completed [] rfl, by simp⟩
      | cons declaration later =>
          simp only [runWithin, step_underWay_cons]
          cases ended : (declaration.process (start.after behind)).result with
          | error error =>
              refine ⟨[declaration], later, .stopped [] error rfl ?_, rfl⟩
              simp [Context.answers, ended]
          | ok value =>
              obtain ⟨processed, rest, ran, arrives⟩ :=
                ih (behind ++ [declaration]) later (Nat.le_of_succ_le_succ enough)
              rw [Context.after_append] at ran
              refine ⟨declaration :: processed, rest, ran.cons ended, ?_⟩
              rw [arrives, List.append_assoc, List.singleton_append]

theorem run_underWay (start : Context) (behind ahead : List Declaration) :
    ∃ processed rest,
      Ran (start.after behind) ahead processed rest (underWay start behind ahead).run.result ∧
        (underWay start behind ahead).run.program = underWay start (behind ++ processed) rest :=
  runWithin_underWay start behind ahead (Nat.le_of_eq (pending_underWay ..).symm)

/-- A run that succeeds leaves nothing pending, and no pending declaration failed. A run that fails
does so with the first failure among the pending declarations. It has processed the declarations up
to that one, and the others are still pending. -/
structure RunsToFailure (program : Program) : Prop where
  completed : program.run.result = .ok () →
    program.run.program.pending = 0 ∧
      ∃ values : List (Option Value), program.drain.result = values.map .ok
  stopped : ∀ error, program.run.result = .error error →
    ∃ values : List (Option Value),
      program.drain.result =
          values.map .ok ++ .error error :: program.run.program.drain.result ∧
        program.run.program.processed = program.processed + values.length + 1

theorem runsToFailure_underWay (start : Context) (behind ahead : List Declaration) :
    (underWay start behind ahead).RunsToFailure := by
  obtain ⟨processed, rest, ran, arrives⟩ := run_underWay start behind ahead
  have drained := (drain_underWay start behind ahead).1
  have remaining := (drain_underWay start (behind ++ processed) rest).1
  rw [Context.after_append] at remaining
  generalize ends : (underWay start behind ahead).run.result = result at ran
  cases ran with
  | completed values answers =>
      constructor
      · intro _
        rw [arrives, pending_underWay, drained]
        exact ⟨rfl, values, answers⟩
      · intro error failed
        cases ends.symm.trans failed
  | stopped values error parts answers =>
      constructor
      · intro succeeded
        cases ends.symm.trans succeeded
      · intro other failed
        cases ends.symm.trans failed
        have count := congrArg List.length answers
        simp only [Context.length_answers, List.length_append, List.length_map,
          List.length_singleton] at count
        refine ⟨values, ?_, ?_⟩
        · rw [drained, arrives, remaining, parts, Context.answers_append, answers,
            List.append_assoc, List.singleton_append]
        · rw [arrives]
          simp only [underWay, List.length_append]
          omega

end Program

/-!
## Sequences of commands
-/

namespace Command

/-- A command that does not reach into the context by itself. -/
def Drives : Command → Prop
  | operate _ => False
  | _ => True

/-- The declarations that the command hands over. -/
def given : Command → List Declaration
  | source text =>
    match parse text with
    | .ok declarations => declarations
    | .error _ => []
  | extend declarations => declarations
  | _ => []

/-- What came of the declarations that the command processed. A run does not hand out the answers of
its steps; they are those of as many single steps. -/
def answers (program : Program) : Command → List Program.Answer
  | step =>
    match program.step with
    | some progress => [progress.result]
    | none => []
  | drain => program.drain.result
  | run => (program.drainWithin (program.run.program.processed - program.processed)).result
  | _ => []

end Command

namespace Program

/-- The program that some commands lead to. -/
def after (program : Program) (commands : List Command) : Program :=
  commands.foldl (fun program command => (command.perform program).program) program

/-- What came of the declarations that the commands processed, in the order in which they did. -/
def answers (program : Program) : List Command → List Answer
  | [] => []
  | command :: rest =>
    command.answers program ++ (command.perform program).program.answers rest

/-- One command: it moves some declarations from what is ahead to what is behind, answers for just
these, and adds what it was given. -/
theorem perform_underWay (start : Context) (behind ahead : List Declaration) {command : Command}
    (drives : command.Drives) :
    ∃ processed rest, ahead = processed ++ rest ∧
      (command.perform (underWay start behind ahead)).program =
        underWay start (behind ++ processed) (rest ++ command.given) ∧
      command.answers (underWay start behind ahead) =
        (start.after behind).answers processed := by
  cases command with
  | operate operation => exact drives.elim
  | extend declarations => exact ⟨[], ahead, rfl, by simp [Command.perform, Command.given,
      extend_underWay], rfl⟩
  | source text =>
      refine ⟨[], ahead, rfl, ?_, rfl⟩
      simp only [Command.perform, Command.given]
      cases parse text with
      | error error => simp
      | ok declarations => simp [extend_underWay]
  | step =>
      cases ahead with
      | nil => exact ⟨[], [], rfl, by simp [Command.perform, step_underWay_nil, Command.given],
          by simp [Command.answers, step_underWay_nil, Context.answers]⟩
      | cons declaration rest =>
          refine ⟨[declaration], rest, rfl, ?_, ?_⟩
          · simp [Command.perform, step_underWay_cons, Command.given]
          · simp [Command.answers, step_underWay_cons, Context.answers]
  | drain =>
      obtain ⟨answers, arrives⟩ := drain_underWay start behind ahead
      refine ⟨ahead, [], (List.append_nil ahead).symm, ?_, answers⟩
      simpa [Command.perform, Command.given] using arrives
  | run =>
      obtain ⟨processed, rest, ran, arrives⟩ := run_underWay start behind ahead
      refine ⟨processed, rest, ran.parts, ?_, ?_⟩
      · simpa [Command.perform, Command.given] using arrives
      · have count : (underWay start (behind ++ processed) rest).processed -
            (underWay start behind ahead).processed = processed.length := by
          simp [underWay]
        rw [Command.answers, arrives, count, (drainWithin_underWay ..).1, ran.parts,
          List.take_left]

/-- All commands together. -/
theorem after_underWay (start : Context) (behind ahead : List Declaration)
    {commands : List Command} (drives : ∀ command ∈ commands, command.Drives) :
    ∃ processed rest, ahead ++ commands.flatMap Command.given = processed ++ rest ∧
      (underWay start behind ahead).after commands = underWay start (behind ++ processed) rest ∧
      (underWay start behind ahead).answers commands =
        (start.after behind).answers processed := by
  induction commands generalizing behind ahead with
  | nil => exact ⟨[], ahead, by simp, by simp [after], rfl⟩
  | cons command rest ih =>
      obtain ⟨first, waiting, parts, arrives, answers⟩ :=
        perform_underWay start behind ahead (drives command List.mem_cons_self)
      obtain ⟨processed, remaining, split, ends, others⟩ :=
        ih (behind ++ first) (waiting ++ command.given)
          fun other member => drives other (List.mem_cons_of_mem command member)
      refine ⟨first ++ processed, remaining, ?_, ?_, ?_⟩
      · rw [parts, List.flatMap_cons, List.append_assoc, List.append_assoc, ← split,
          List.append_assoc]
      · rw [after, List.foldl_cons, arrives, ← List.append_assoc]
        exact ends
      · rw [Program.answers, answers, arrives, others, Context.after_append,
          Context.answers_append]

/-- A program with a fresh context has nothing behind it. -/
theorem ofConfig_eq_underWay (config : Config) (declarations : List Declaration) :
    ofConfig config declarations = underWay { config } [] declarations := rfl

/-- How declarations are handed over and by which calls they are processed makes no difference. The
declarations that were processed are the first of all that were given, the others are pending, and
the answers and the context are those of a fresh program that holds just the processed declarations
and drains them. A run goes on to the first failure, and what it leaves is still ahead. -/
theorem schedule_is_immaterial (config : Config) (first : List Declaration)
    {commands : List Command} (drives : ∀ command ∈ commands, command.Drives) :
    let start := ofConfig config first
    let program := start.after commands
    let given := first ++ commands.flatMap Command.given
    let alone := (ofConfig config (given.take program.processed)).drain
    program.declarations = given ∧
      program.processed ≤ given.length ∧
      program.pending = (given.drop program.processed).length ∧
      start.answers commands = alone.result ∧
      alone.result.length = program.processed ∧
      program.context = alone.program.context ∧
      program.RunsToFailure := by
  intro start program given alone
  obtain ⟨processed, rest, parts, arrives, answers⟩ := after_underWay { config } [] first drives
  rw [List.nil_append] at arrives
  have isProgram : program = underWay { config } processed rest := arrives
  have count : program.processed = processed.length := by rw [isProgram]; rfl
  have isGiven : given = processed ++ rest := parts
  have isAlone : alone = (underWay { config } [] processed).drain := by
    change (ofConfig config (given.take program.processed)).drain = _
    rw [isGiven, count, List.take_left, ofConfig_eq_underWay]
  obtain ⟨drained, ends⟩ := drain_underWay { config } [] processed
  rw [← isAlone] at drained ends
  refine ⟨?_, ?_, ?_, ?_, ?_, ?_, ?_⟩
  · rw [isProgram, isGiven]
    rfl
  · rw [count, isGiven, List.length_append]
    exact Nat.le_add_right _ _
  · rw [isProgram, isGiven, pending_underWay]
    simp [underWay]
  · rw [drained]
    exact answers
  · rw [drained, count, Context.length_answers]
  · rw [isProgram, ends]
    rfl
  · rw [isProgram]
    exact runsToFailure_underWay ..

/-- A program whose only declaration fails. -/
def unbound : Program := ofConfig {} [.expression (.var (.bare "x"))]

/-- Hands over a second declaration, and runs twice because the first one fails. -/
def runningTwice : List Command :=
  [.extend [.expression (.literal (.ofNumber 1))], .run, .run]

theorem run_resumes_behind_failure :
    (∀ command ∈ runningTwice, command.Drives) ∧
      (unbound.after runningTwice).processed = 2 ∧
      unbound.answers runningTwice =
        [.error ⟨.unknownVariable "x", Span.empty⟩, .ok (some (.ofNumber 1))] ∧
      unbound.answers runningTwice =
        (ofConfig {} [.expression (.var (.bare "x")),
          .expression (.literal (.ofNumber 1))]).drain.result ∧
      (unbound.after runningTwice).RunsToFailure := by
  have drives : ∀ command ∈ runningTwice, command.Drives := by
    simp [runningTwice, Command.Drives]
  have alone := schedule_is_immaterial {} [.expression (.var (.bare "x"))] drives
  exact ⟨drives, rfl, rfl, alone.2.2.2.1, alone.2.2.2.2.2.2⟩

end Program

end FrameLang
