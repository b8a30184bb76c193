import FrameLang.Proofs.Restoration
import FrameLang.Proofs.Schedules
import Mathlib.Data.List.Induction

/-!
The state of a program in closed form. An evaluation hands its context back, and what fails to be
registered writes nothing, so behind any declarations the context consists of the functions that
were registered and of nothing else. The answer for a declaration is read off that table, and
declarations that left it alone could as well not have been there.
-/

set_option autoImplicit false

namespace FrameLang

/-!
## Registered functions
-/

/-- A context without variables and without calls in progress, whose only frame knows the given
functions. -/
def Context.knowing (config : Config) (functions : Bindings Signature Function) : Context :=
  { base := { functions }, config }

namespace Declaration

/-- The function that the declaration offers under the signature. A lambda cannot be declared. -/
def defines? (signature : Signature) : Declaration → Option Function
  | .function definition =>
    if definition.isLambda = false ∧ definition.signature = signature then some definition
    else none
  | .expression _ => none

/-- The table of functions behind the declaration. An entry that is there stays. -/
def register (functions : Bindings Signature Function) :
    Declaration → Bindings Signature Function
  | .function definition =>
    if definition.isLambda then functions
    else
      match functions.find? definition.signature with
      | some _ => functions
      | none => functions.insert definition.signature definition
  | .expression _ => functions

end Declaration

/-- The first of the declarations that defines a function under the signature. -/
def firstDefined? (declarations : List Declaration) (signature : Signature) : Option Function :=
  declarations.findSome? (Declaration.defines? signature)

def registered (declarations : List Declaration) : Bindings Signature Function :=
  declarations.foldl Declaration.register {}

theorem registered_append (declarations : List Declaration) (declaration : Declaration) :
    registered (declarations ++ [declaration]) = declaration.register (registered declarations) := by
  simp only [registered, List.foldl_append, List.foldl_cons, List.foldl_nil]

theorem Declaration.find?_register (functions : Bindings Signature Function)
    (declaration : Declaration) (signature : Signature) :
    (declaration.register functions).find? signature =
      (functions.find? signature).or (declaration.defines? signature) := by
  cases declaration with
  | expression expr => simp [register, defines?]
  | function definition =>
      cases isLambda : definition.isLambda with
      | true => simp [register, defines?, isLambda]
      | false =>
          simp only [register, defines?, isLambda, Bool.false_eq_true, if_false, true_and]
          cases found : functions.find? definition.signature with
          | some old =>
              by_cases same : definition.signature = signature
              · subst same
                simp [found]
              · simp [same]
          | none =>
              by_cases same : definition.signature = signature
              · subst same
                simp [found]
              · simp only [same, if_false, Option.or_none]
                exact Bindings.find?_insert_of_ne functions same definition

/-- The table maps a signature to the first function that was declared under it. -/
theorem find?_registered (declarations : List Declaration) (signature : Signature) :
    (registered declarations).find? signature = firstDefined? declarations signature := by
  induction declarations using List.reverseRecOn with
  | nil => rfl
  | append_singleton earlier declaration ih =>
      rw [registered_append, Declaration.find?_register, ih, firstDefined?, firstDefined?,
        List.findSome?_append]
      simp only [List.findSome?_cons, List.findSome?_nil]
      cases declaration.defines? signature <;> rfl

/-!
## Declarations in such a context
-/

/-- What comes of a declaration behind the given ones. -/
def Declaration.answerBehind (config : Config) (earlier : List Declaration) :
    Declaration → Program.Answer
  | .function definition =>
    if definition.isLambda then
      .error ⟨.lambdaAtTopLevel definition.name.text, definition.span⟩
    else
      match firstDefined? earlier definition.signature with
      | some _ => .error ⟨.functionDefined definition.name.text definition.arity, definition.span⟩
      | none => .ok none
  | .expression expr =>
    (expr.evaluate (Context.knowing config (registered earlier))).result.map some

section Process

variable (config : Config) (context : Context)

theorem Declaration.process_expression (expr : Expr) :
    ((Declaration.expression expr).process context).result =
        (expr.evaluate context).result.map some ∧
      ((Declaration.expression expr).process context).context = context := by
  have tidy : ((Declaration.expression expr).process).Tidy :=
    .bind expr.evaluate_tidy fun value => .done (some value)
  refine ⟨?_, tidy.restores context⟩
  change ((expr.evaluate >>= fun value => pure (some value)) context).result = _
  rw [expr.evaluate_tidy.bind_result]
  cases (expr.evaluate context).result <;> rfl

theorem Declaration.process_knowing (earlier : List Declaration) (declaration : Declaration) :
    (declaration.process (Context.knowing config (registered earlier))).result =
        declaration.answerBehind config earlier ∧
      (declaration.process (Context.knowing config (registered earlier))).context =
        Context.knowing config (registered (earlier ++ [declaration])) := by
  rw [registered_append]
  cases declaration with
  | expression expr => exact process_expression _ expr
  | function definition =>
      have current : (Context.knowing config (registered earlier)).current.functions =
          registered earlier := rfl
      obtain ⟨isLambda, refused⟩ | ⟨isLambda, ⟨old, taken⟩, refused⟩ | ⟨isLambda, fresh, bound⟩ :=
        process_function definition (Context.knowing config (registered earlier))
      · rw [refused]
        simp only [answerBehind, register, isLambda, if_true, and_self]
      · rw [refused]
        rw [current] at taken
        simp only [answerBehind, register, isLambda, Bool.false_eq_true, if_false,
          ← find?_registered, taken, and_self]
      · rw [bound]
        rw [current] at fresh
        simp only [answerBehind, register, isLambda, Bool.false_eq_true, if_false,
          ← find?_registered, fresh, true_and]
        rfl

end Process

/-- The context behind declarations, from a fresh one. -/
theorem after_eq_knowing (config : Config) (declarations : List Declaration) :
    Context.after { config } declarations = Context.knowing config (registered declarations) := by
  induction declarations using List.reverseRecOn with
  | nil => rfl
  | append_singleton earlier declaration ih =>
      rw [Context.after_append, ih]
      exact (declaration.process_knowing config earlier).2

theorem getElem?_answers (config : Config) (declarations : List Declaration) (index : Nat) :
    (Context.answers { config } declarations)[index]? =
      declarations[index]?.map (Declaration.answerBehind config (declarations.take index)) := by
  cases found : declarations[index]? with
  | none =>
      simp only [Option.map_none, List.getElem?_eq_none_iff, Context.length_answers] at found ⊢
      exact found
  | some declaration =>
      have short := (List.getElem?_eq_some_iff.mp found).1
      have split : declarations = declarations.take index ++
          declaration :: declarations.drop (index + 1) := by
        rw [← List.getElem?_eq_some_iff.mp found |>.2, List.getElem_cons_drop,
          List.take_append_drop]
      have length : (Context.answers { config } (declarations.take index)).length = index := by
        rw [Context.length_answers, List.length_take_of_le (Nat.le_of_lt short)]
      rw [congrArg (Context.answers { config }) split, Context.answers_append,
        List.getElem?_append_right (Nat.le_of_eq length), length, Nat.sub_self, after_eq_knowing]
      exact congrArg some (declaration.process_knowing config (declarations.take index)).1

/-!
## Declarations that leave no mark
-/

/-- The declaration is an expression, or it failed. -/
def Declaration.Inert (declaration : Declaration) (answer : Program.Answer) : Prop :=
  (∃ expr, declaration = .expression expr) ∨ ∃ error, answer = .error error

/-- Some inert declarations are left out, together with their answers. -/
inductive Thinned : List (Declaration × Program.Answer) → List (Declaration × Program.Answer) → Prop
    where
  | nil : Thinned [] []
  | keep {entry all kept} : Thinned all kept → Thinned (entry :: all) (entry :: kept)
  | drop {declaration answer all kept} :
      declaration.Inert answer → Thinned all kept → Thinned ((declaration, answer) :: all) kept

theorem Declaration.process_inert {declaration : Declaration} {context : Context}
    (inert : declaration.Inert (declaration.process context).result) :
    (declaration.process context).context = context := by
  cases declaration with
  | expression expr => exact (process_expression context expr).2
  | function definition =>
      rcases inert with ⟨expr, isExpression⟩ | ⟨error, failed⟩
      · cases isExpression
      obtain ⟨_, refused⟩ | ⟨_, _, refused⟩ | ⟨_, _, bound⟩ := process_function definition context
      · rw [refused]
      · rw [refused]
      · rw [bound] at failed
        cases failed

/-- What is left answers as before. -/
theorem Thinned.answers {declarations : List Declaration} {context : Context}
    {kept : List (Declaration × Program.Answer)}
    (thinned : Thinned (declarations.zip (context.answers declarations)) kept) :
    context.answers (kept.map Prod.fst) = kept.map Prod.snd := by
  induction declarations generalizing context kept with
  | nil =>
      cases thinned
      rfl
  | cons declaration rest ih =>
      rw [Context.answers, List.zip_cons_cons] at thinned
      cases thinned with
      | keep others =>
          rw [List.map_cons, List.map_cons, Context.answers, ih others]
      | drop inert others =>
          rw [Declaration.process_inert inert] at others
          exact ih others

/-!
## Programs
-/

namespace Program

/-- Behind any declarations, processed by whatever calls, the context of a program is a single frame
without variables that knows, under each signature, the first function declared under it. The answer
for a function is that it cannot be declared, that an earlier one took its signature, or success;
the answer for an expression is what a fresh context with the functions of that moment gives. Inert
declarations may be left out: the others answer as before. -/
theorem state_is_registered_functions (config : Config) (first : List Declaration)
    {commands : List Command} (drives : ∀ command ∈ commands, command.Drives) :
    let start := ofConfig config first
    let program := start.after commands
    let behind := (first ++ commands.flatMap Command.given).take program.processed
    program.context = Context.knowing config (registered behind) ∧
      (program.context.frameDepth = 1 ∧ program.context.currentVariables = [] ∧
        program.context.callDepth = 0) ∧
      (∀ signature, program.context.current.functions.find? signature =
        firstDefined? behind signature) ∧
      (∀ index, (start.answers commands)[index]? =
        behind[index]?.map (Declaration.answerBehind config (behind.take index))) ∧
      ∀ kept, Thinned (behind.zip (start.answers commands)) kept →
        ∀ (otherFirst : List Declaration) (otherCommands : List Command),
          (∀ command ∈ otherCommands, command.Drives) →
          (otherFirst ++ otherCommands.flatMap Command.given).take
              ((ofConfig config otherFirst).after otherCommands).processed = kept.map Prod.fst →
            (ofConfig config otherFirst).answers otherCommands = kept.map Prod.snd := by
  -- By any schedule, the answers are those of the processed declarations in a fresh context.
  have closed {first : List Declaration} {commands : List Command}
      (drives : ∀ command ∈ commands, command.Drives) :
      let behind := (first ++ commands.flatMap Command.given).take
        ((ofConfig config first).after commands).processed
      ((ofConfig config first).after commands).context = Context.after { config } behind ∧
        (ofConfig config first).answers commands = Context.answers { config } behind := by
    obtain ⟨processed, rest, parts, arrives, answers⟩ := after_underWay { config } [] first drives
    rw [← ofConfig_eq_underWay, List.nil_append] at arrives
    have isBehind : (first ++ commands.flatMap Command.given).take
        ((ofConfig config first).after commands).processed = processed := by
      rw [arrives, parts]
      exact List.take_left
    dsimp only
    rw [isBehind, arrives]
    exact ⟨rfl, answers⟩
  intro start program behind
  obtain ⟨context, answers⟩ := closed drives
  have known : program.context = Context.knowing config (registered behind) :=
    context.trans (after_eq_knowing config behind)
  refine ⟨known, ?_, fun signature => ?_, fun index => ?_, ?_⟩
  · rw [known]
    exact ⟨rfl, rfl, rfl⟩
  · rw [known]
    exact find?_registered behind signature
  · rw [answers]
    exact getElem?_answers config behind index
  · intro kept thinned otherFirst otherCommands otherDrives same
    rw [answers] at thinned
    rw [(closed otherDrives).2, same]
    exact thinned.answers

def one : Declaration :=
  .function
    { name := .bare "one"
      parameters := []
      body := .literal (.ofNumber 1)
      isLambda := false
      span := Span.empty }

def useOfOne : Declaration := .expression (.call (.bare "one") [] Span.empty)

/-- A failure between a function and its use. -/
def interrupted : List Declaration := [one, .expression (.var (.bare "x")), useOfOne]

def answersOfOne : List Answer := [.ok none, .ok (some (.ofNumber 1))]

theorem failure_left_out :
    (∀ command ∈ [Command.run, .run], command.Drives) ∧
      (∀ command ∈ [Command.step, .step], command.Drives) ∧
      Thinned (interrupted.zip ((ofConfig {} interrupted).answers [.run, .run]))
        ([one, useOfOne].zip answersOfOne) ∧
      ((ofConfig {} interrupted).after [.run, .run]).context.frameDepth = 1 ∧
      (ofConfig {} [one, useOfOne]).answers [.step, .step] = answersOfOne := by
  have runs : ∀ command ∈ [Command.run, .run], command.Drives := by simp [Command.Drives]
  have steps : ∀ command ∈ [Command.step, .step], command.Drives := by simp [Command.Drives]
  have answered : (ofConfig {} interrupted).answers [.run, .run] =
      [.ok none, .error ⟨.unknownVariable "x", Span.empty⟩, .ok (some (.ofNumber 1))] := rfl
  have thinned : Thinned (interrupted.zip ((ofConfig {} interrupted).answers [.run, .run]))
      ([one, useOfOne].zip answersOfOne) := by
    rw [answered]
    exact .keep (.drop (.inl ⟨_, rfl⟩) (.keep .nil))
  obtain ⟨_, bare, _, _, others⟩ := state_is_registered_functions {} interrupted runs
  have same := others _ thinned [one, useOfOne] [.step, .step] steps rfl
  exact ⟨runs, steps, thinned, bare.1, same⟩

end Program

end FrameLang
