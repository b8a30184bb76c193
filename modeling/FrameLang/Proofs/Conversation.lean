import FrameLang.Prompt
import FrameLang.Proofs.CommandOutcome
import FrameLang.Proofs.JsonStrings
import Mathlib.Data.List.Induction

/-!
What a conversation at the prompt amounts to. A line takes its declarations one by one and gives up
at the first that fails, so the program never holds a declaration that it has not processed. Between
two lines it is therefore a bare context with some functions, and a line that adds none of these
cannot be noticed by the others.
-/

set_option autoImplicit false

namespace FrameLang

open Program

/-!
## Rows that end with the first failure
-/

namespace Context

/-- The declarations of a row that are processed if the first failure ends the row. -/
def upToFailure (context : Context) : List Declaration → List Declaration
  | [] => []
  | declaration :: rest =>
    let outcome := declaration.process context
    match outcome.result with
    | .ok _ => declaration :: outcome.context.upToFailure rest
    | .error _ => [declaration]

theorem upToFailure_cons_of_ok {context : Context} {declaration : Declaration}
    {value : Option Value} (succeeded : (declaration.process context).result = .ok value)
    (rest : List Declaration) :
    context.upToFailure (declaration :: rest) =
      declaration :: (declaration.process context).context.upToFailure rest := by
  simp only [upToFailure, succeeded]

theorem upToFailure_cons_of_error {context : Context} {declaration : Declaration} {error : Error}
    (failed : (declaration.process context).result = .error error) (rest : List Declaration) :
    context.upToFailure (declaration :: rest) = [declaration] := by
  simp only [upToFailure, failed]

theorem ran_upToFailure (context : Context) (declarations : List Declaration) :
    ∃ rest result, Ran context declarations (context.upToFailure declarations) rest result := by
  induction declarations generalizing context with
  | nil => exact ⟨[], .ok (), .completed [] rfl⟩
  | cons declaration later ih =>
      cases ended : (declaration.process context).result with
      | error error =>
          rw [upToFailure_cons_of_error ended]
          exact ⟨later, .error error, .stopped [] error rfl (by simp [answers, ended])⟩
      | ok value =>
          obtain ⟨rest, result, ran⟩ := ih (declaration.process context).context
          rw [upToFailure_cons_of_ok ended]
          exact ⟨rest, result, ran.cons ended⟩

theorem upToFailure_of_answers {context : Context} {processed : List Declaration}
    {values : List (Option Value)} {error : Error}
    (answers : context.answers processed = values.map .ok ++ [.error error])
    (rest : List Declaration) : context.upToFailure (processed ++ rest) = processed := by
  induction processed generalizing context values with
  | nil => simp [Context.answers] at answers
  | cons declaration later ih =>
      rw [Context.answers] at answers
      cases values with
      | nil =>
          simp only [List.map_nil, List.nil_append, List.cons.injEq] at answers
          have alone : later = [] := by
            simpa using congrArg List.length answers.2
          rw [alone]
          exact upToFailure_cons_of_error answers.1 rest
      | cons value others =>
          simp only [List.map_cons, List.cons_append, List.cons.injEq] at answers
          rw [List.cons_append, upToFailure_cons_of_ok answers.1, ih answers.2]

/-- Whatever stands behind the first failure does not matter. -/
theorem upToFailure_of_ran {context : Context} {declarations processed rest : List Declaration}
    {error : Error} (ran : Ran context declarations processed rest (.error error))
    (others : List Declaration) : context.upToFailure (processed ++ others) = processed := by
  cases ran with
  | stopped values _ _ answers => exact upToFailure_of_answers answers others

/-!
## Functions that a row registers
-/

theorem findFunction?_process (context : Context) (declaration : Declaration)
    {signature : Signature} {function : Function} :
    (declaration.process context).context.current.functions.find? signature = some function ↔
      context.current.functions.find? signature = some function ∨
        function.signature = signature ∧
          (.function function, .ok none) = (declaration, (declaration.process context).result) := by
  cases declaration with
  | expression expr =>
      obtain ⟨_, stays⟩ := Declaration.process_expression context expr
      simp [stays]
  | function definition =>
      obtain ⟨_, refused⟩ | ⟨_, _, refused⟩ | ⟨_, fresh, bound⟩ :=
        Declaration.process_function definition context
      · simp [refused]
      · simp [refused]
      · simp only [bound, withFunction, current_mapCurrent, Bindings.find?_insert]
        by_cases same : signature = definition.signature
        · subst same
          grind
        · grind

/-- The functions behind a row are those before it, and those whose declarations succeeded. -/
theorem findFunction?_after {context : Context} (declarations : List Declaration)
    {signature : Signature} {function : Function} :
    (context.after declarations).current.functions.find? signature = some function ↔
      context.current.functions.find? signature = some function ∨
        function.signature = signature ∧
          (.function function, .ok none) ∈ declarations.zip (context.answers declarations) := by
  induction declarations generalizing context with
  | nil => simp
  | cons declaration rest ih =>
      simp only [after_cons, ih, findFunction?_process, answers, List.zip_cons_cons, List.mem_cons]
      tauto

theorem inert_of_unregistered {context : Context} {declaration : Declaration}
    (none : ∀ function,
      (.function function, .ok none) ≠ (declaration, (declaration.process context).result)) :
    declaration.Inert (declaration.process context).result := by
  cases declaration with
  | expression expr => exact .inl ⟨expr, rfl⟩
  | function definition =>
      obtain ⟨_, refused⟩ | ⟨_, _, refused⟩ | ⟨_, _, bound⟩ :=
        Declaration.process_function definition context
      · exact .inr ⟨_, congrArg Outcome.result refused⟩
      · exact .inr ⟨_, congrArg Outcome.result refused⟩
      · exact absurd (by rw [bound]) (none definition)

/-- A row that registers nothing leaves no mark. -/
theorem after_of_unregistered {context : Context} {declarations : List Declaration}
    (none : ∀ function, (.function function, .ok none) ∉
      declarations.zip (context.answers declarations)) : context.after declarations = context := by
  induction declarations generalizing context with
  | nil => rfl
  | cons declaration rest ih =>
      simp only [answers, List.zip_cons_cons, List.mem_cons, not_or] at none
      have inert := inert_of_unregistered fun function => (none function).1
      have stays := Declaration.process_inert inert
      rw [after_cons, stays]
      rw [stays] at none
      exact ih fun function => (none function).2

theorem WithinLimits.after {config : Config} {calls : Nat} {context : Context}
    (within : context.WithinLimits config calls) (declarations : List Declaration) :
    (context.after declarations).WithinLimits config calls := by
  induction declarations generalizing context with
  | nil => exact within
  | cons declaration rest ih => exact ih (within.process declaration)

end Context

/-!
## Lines
-/

namespace Prompt

/-- The line for what came of a declaration. A function that was registered has none. -/
def lineFor : Program.Answer → String
  | .ok none => ""
  | .ok (some value) => value.text ++ "\n"
  | .error error => error.report ++ "\n"

/-- The declarations that a text hands over. -/
def given (text : String) : List Declaration :=
  match parse text with
  | .ok declarations => declarations
  | .error _ => []

/-- What the reply to a text shows in the given context. -/
def shownIn (context : Context) (text : String) : String :=
  match parse text with
  | .ok declarations =>
    String.join ((context.answers (context.upToFailure declarations)).map lineFor)
  | .error error => error.report ++ "\n"

/-- The program between two lines: it has processed some declarations, and none is left. -/
def settled (behind : List Declaration) : Program := underWay {} behind []

theorem settled_withinLimits (behind : List Declaration) :
    (settled behind).context.WithinLimits {} 0 :=
  (Context.withinLimits_fresh {}).after behind

theorem step_settled (behind : List Declaration) (declaration : Declaration) :
    let outcome := declaration.process (settled behind).context
    ((settled behind).extend [declaration]).step =
      some { result := outcome.result
             program := settled (behind ++ [declaration])
             events := outcome.events } := by
  rw [settled, extend_underWay]
  exact step_underWay_cons {} behind [] declaration

theorem context_settled_append (behind more : List Declaration) :
    (settled (behind ++ more)).context = (settled behind).context.after more :=
  Context.after_append {} behind more

/-- A row is processed up to its first failure, and what came of that is shown. -/
theorem process_settled (behind declarations : List Declaration) :
    let context := (settled behind).context
    process (settled behind) declarations =
      { shown := String.join ((context.answers (context.upToFailure declarations)).map lineFor)
        program := settled (behind ++ context.upToFailure declarations) } := by
  intro context
  induction declarations generalizing behind with
  | nil => simp [process, Context.upToFailure, Context.answers]
  | cons declaration rest ih =>
      have others := ih (behind ++ [declaration])
      simp only [context_settled_append, Context.after_cons, Context.after_nil, List.append_assoc,
        List.singleton_append] at others
      cases ended : (declaration.process context).result with
      | error error =>
          have notFatal :=
            declaration.not_fatal_of_failed (settled_withinLimits behind).wellKeyed ended
          simp [process, step_settled, ended, notFatal, Reply.showing, context,
            Context.upToFailure_cons_of_error ended, Context.answers, lineFor]
      | ok answer =>
          cases answer with
          | none =>
              simp [process, step_settled, ended, others, context,
                Context.upToFailure_cons_of_ok ended, Context.answers, lineFor]
          | some value =>
              simp [process, step_settled, ended, others, Reply.showing, context,
                Context.upToFailure_cons_of_ok ended, Context.answers, lineFor]

theorem reply_settled (behind : List Declaration) (text : String) :
    let context := (settled behind).context
    reply (settled behind) text =
      { shown := shownIn context text
        program := settled (behind ++ context.upToFailure (given text)) } := by
  intro context
  cases parsed : parse text with
  | error error => simp [reply, parsed, shownIn, given, Context.upToFailure, Reply.showing]
  | ok declarations =>
      simp only [reply, parsed, shownIn, given]
      exact process_settled behind declarations

/-!
## Conversations
-/

/-- The lines that are read. One that is not UTF-8 ends the input. -/
def texts : List (List UInt8) → List String
  | [] => []
  | line :: rest =>
    match String.fromUTF8? ⟨line.toArray⟩ with
    | none => []
    | some text => text :: texts rest

/-- The program that waits for a line behind the given ones. -/
def after (program : Program) (texts : List String) : Program :=
  texts.foldl (fun program text => (reply program text).program) program

def replies (program : Program) : List String → List Reply
  | [] => []
  | text :: rest => reply program text :: replies (reply program text).program rest

/-- The lines of an input that are read. -/
def heard (input : ByteArray) : List String := texts (lines input.toList)

/-- What is shown for the lines of an input, one text for each line that is read. -/
def shownLines (input : ByteArray) : List String := (replies {} (heard input)).map Reply.shown

/-- The function is declared in the line and its declaration succeeds when the program reads it. -/
def Registers (program : Program) (text : String) (function : Function) : Prop :=
  let processed := program.context.upToFailure (given text)
  (.function function, .ok none) ∈ processed.zip (program.context.answers processed)

/-- Everything is processed, and the context is bare except for functions. -/
structure Waits (program : Program) (known : Function → Prop) : Prop where
  pending : program.pending = 0
  frames : program.context.frameDepth = 1
  vars : program.context.currentVariables = []
  calls : program.context.callDepth = 0
  functions : ∀ signature function, program.context.findFunction? signature = some function ↔
    function.signature = signature ∧ known function

/-- The declarations are processed up to the first failure. The others are not taken up, and it does
not matter what they are. -/
structure Answers (program : Program) (declarations processed rest : List Declaration)
    (result : Except Error Unit) (reply : Reply) : Prop where
  ran : Ran program.context declarations processed rest result
  shown : reply.shown = String.join ((program.context.answers processed).map lineFor)
  notFatal : ∀ error, .error error ∈ program.context.answers processed → error.isFatal = false
  goesOn : reply.continues = true
  taken : reply.program.declarations = program.declarations ++ processed
  unseen : ∀ error, result = .error error → ∀ others, process program (processed ++ others) = reply

section Texts

variable (program : Program)

theorem after_append (first second : List String) :
    after program (first ++ second) = after (after program first) second :=
  List.foldl_append

theorem replies_append (first second : List String) :
    replies program (first ++ second) =
      replies program first ++ replies (after program first) second := by
  induction first generalizing program with
  | nil => rfl
  | cons text rest ih => simp [replies, ih, after]

theorem length_replies (texts : List String) : (replies program texts).length = texts.length := by
  induction texts generalizing program with
  | nil => rfl
  | cons text rest ih => simp [replies, ih]

/-- As long as no reply ends the conversation, each follows an invitation, and one more invitation
ends the output. -/
theorem answer_eq (program : Program) (lines : List (List UInt8))
    (goesOn : ∀ reply ∈ replies program (texts lines), reply.continues = true) :
    answer program lines =
      String.join (((replies program (texts lines)).map Reply.shown).map (invitation ++ ·)) ++
        invitation := by
  induction lines generalizing program with
  | nil => simp [answer, texts, replies]
  | cons line rest ih =>
      cases decoded : String.fromUTF8? ⟨line.toArray⟩ with
      | none => simp [answer, texts, decoded, replies]
      | some text =>
          simp only [texts, decoded, replies, List.mem_cons, forall_eq_or_imp] at goesOn
          simp [answer, texts, decoded, replies, goesOn.1, ih _ goesOn.2, String.append_assoc]

end Texts

section Settled

variable (behind : List Declaration)

theorem exists_after_eq_settled (texts : List String) :
    ∃ more, after (settled behind) texts = settled (behind ++ more) := by
  induction texts generalizing behind with
  | nil => exact ⟨[], by simp [after]⟩
  | cons text rest ih =>
      obtain ⟨more, arrives⟩ := ih (behind ++ (settled behind).context.upToFailure (given text))
      refine ⟨(settled behind).context.upToFailure (given text) ++ more, ?_⟩
      rw [after, List.foldl_cons, reply_settled, ← List.append_assoc]
      exact arrives

theorem replies_settled_continue (texts : List String) :
    ∀ reply ∈ replies (settled behind) texts, reply.continues = true := by
  induction texts generalizing behind with
  | nil => simp [replies]
  | cons text rest ih =>
      simp only [replies, reply_settled, List.mem_cons, forall_eq_or_imp, true_and]
      exact ih _

/-- What is shown depends on the context alone, and not on how it came about. -/
theorem shown_replies_congr {first second : List Declaration}
    (same : (settled first).context = (settled second).context) (texts : List String) :
    (replies (settled first) texts).map Reply.shown =
      (replies (settled second) texts).map Reply.shown := by
  induction texts generalizing first second with
  | nil => rfl
  | cons text rest ih =>
      have next : (settled (first ++ (settled first).context.upToFailure (given text))).context =
          (settled (second ++ (settled second).context.upToFailure (given text))).context := by
        simp only [context_settled_append, same]
      simp only [replies, reply_settled, List.map_cons, same] at ih ⊢
      rw [same] at next
      exact congrArg _ (ih next)

/-- A line that registers nothing is not noticed by the lines behind it. -/
theorem shown_replies_of_unregistered {text : String}
    (none : ∀ function, ¬ Registers (settled behind) text function) (texts : List String) :
    (replies (reply (settled behind) text).program texts).map Reply.shown =
      (replies (settled behind) texts).map Reply.shown := by
  rw [reply_settled]
  refine shown_replies_congr ?_ texts
  rw [context_settled_append]
  exact Context.after_of_unregistered none

theorem answers_settled {text : String} {declarations : List Declaration}
    (parsed : parse text = .ok declarations) :
    ∃ processed rest result,
      Answers (settled behind) declarations processed rest result (reply (settled behind) text) := by
  obtain ⟨rest, result, ran⟩ := (settled behind).context.ran_upToFailure declarations
  have replied : reply (settled behind) text = process (settled behind) declarations := by
    simp only [reply, parsed]
  rw [replied, process_settled]
  refine ⟨_, rest, result, ran, rfl, ?_, rfl, ?_, fun error failed others => ?_⟩
  · exact (settled_withinLimits behind).answers_not_fatal _
  · simp [settled, underWay]
  · subst failed
    rw [process_settled, Context.upToFailure_of_ran ran others]

end Settled

/-- The functions that are known are those that some line has registered. -/
theorem findFunction?_after_texts (texts : List String) {signature : Signature}
    {function : Function} :
    (after {} texts).context.current.functions.find? signature = some function ↔
      function.signature = signature ∧
        ∃ before text, before ++ [text] <+: texts ∧ Registers (after {} before) text function := by
  induction texts using List.reverseRecOn with
  | nil =>
      have none : ({} : Context).current.functions.find? signature = none := rfl
      simp [after, none]
  | append_singleton earlier text ih =>
      obtain ⟨more, arrives⟩ := exists_after_eq_settled [] earlier
      change after {} earlier = _ at arrives
      have next : (after {} (earlier ++ [text])).context =
          (after {} earlier).context.after
            ((after {} earlier).context.upToFailure (given text)) := by
        rw [after_append, arrives, ← context_settled_append]
        exact congrArg Program.context (congrArg Reply.program (reply_settled _ text))
      simp only [next, Context.findFunction?_after, ih, List.prefix_concat_iff,
        List.append_singleton_inj, Registers]
      grind

theorem waits_after (texts : List String) :
    Waits (after {} texts) fun function =>
      ∃ before text, before ++ [text] <+: texts ∧ Registers (after {} before) text function := by
  obtain ⟨more, arrives⟩ := exists_after_eq_settled [] texts
  change after {} texts = _ at arrives
  have bare : (after {} texts).context = Context.knowing {} (registered more) := by
    rw [arrives]
    exact after_eq_knowing {} more
  refine ⟨?_, ?_, ?_, ?_, fun signature function => ?_⟩
  · rw [arrives]
    exact pending_underWay ..
  · rw [bare]
    rfl
  · rw [bare]
    rfl
  · rw [bare]
    rfl
  · rw [← findFunction?_after_texts, bare]
    rfl

/-- An input whose lines are the given texts shows the replies to them one by one. -/
theorem shownLines_append {input : ByteArray} {first second : List String}
    (split : heard input = first ++ second) :
    shownLines input = (replies {} first).map Reply.shown ++
      (replies (after {} first) second).map Reply.shown := by
  rw [shownLines, split, replies_append, List.map_append]

theorem run_eq (input : ByteArray) :
    run input =
      { stdout := String.join ((shownLines input).map (invitation ++ ·)) ++ invitation } := by
  rw [run, answer_eq {} _ (replies_settled_continue [] _)]
  rfl

/-- Whenever the prompt waits for a line, nothing is left over, and the context is bare except for the
functions that earlier lines have registered. A line that cannot be read shows why, and changes
nothing. Any other line shows what came of its declarations up to the first failure; the rest of it is
not taken up, and as no failure is fatal the prompt goes on. A line that registers nothing could as
well not have been there: the others show the same without it. -/
theorem conversation_keeps_registered_functions (input : ByteArray) :
    run input =
        { stdout := String.join ((shownLines input).map (invitation ++ ·)) ++ invitation } ∧
      (∀ earlier, earlier <+: heard input →
        Waits (after {} earlier) fun function =>
          ∃ before text, before ++ [text] <+: earlier ∧
            Registers (after {} before) text function) ∧
      ∀ earlier text later, heard input = earlier ++ text :: later →
        let program := after {} earlier
        let reply := reply program text
        (shownLines input)[earlier.length]? = some reply.shown ∧
          (∀ error, parse text = .error error →
            reply = { shown := error.report ++ "\n", program }) ∧
          (∀ declarations, parse text = .ok declarations →
            ∃ processed rest result, Answers program declarations processed rest result reply) ∧
          ((∀ function, ¬ Registers program text function) →
            ∀ other : ByteArray, heard other = earlier ++ later →
              shownLines other = (shownLines input).eraseIdx earlier.length) := by
  refine ⟨run_eq input, fun earlier _ => waits_after earlier, ?_⟩
  intro earlier text later split program
  obtain ⟨behind, arrives⟩ : ∃ behind, program = settled behind :=
    exists_after_eq_settled [] earlier
  have shown := shownLines_append split
  have length : ((replies {} earlier).map Reply.shown).length = earlier.length := by
    rw [List.length_map, length_replies]
  refine ⟨?_, fun error refused => ?_, fun declarations parsed => ?_, fun none other same => ?_⟩
  · rw [shown, ← length, List.getElem?_append_right (Nat.le_refl _), Nat.sub_self]
    rfl
  · simp [reply, refused, Reply.showing]
  · rw [arrives]
    exact answers_settled behind parsed
  · have unnoticed := shown_replies_of_unregistered behind (arrives ▸ none) later
    rw [← arrives] at unnoticed
    rw [shownLines_append same, shown, ← length, List.eraseIdx_append_of_length_le (Nat.le_refl _),
      Nat.sub_self]
    exact congrArg _ unnoticed.symm

/-- A line that fails at its first declaration can be left out. -/
theorem failing_line_left_out :
    let input := "x;y\nz\n".toUTF8
    heard input = ["x;y", "z"] ∧
      (shownLines input)[0]? = some (reply {} "x;y").shown ∧
      shownLines "z\n".toUTF8 = (shownLines input).eraseIdx 0 := by
  intro input
  have read : heard input = ["x;y", "z"] := by
    rw [heard, Config.Json.toList_eq_data]
    rfl
  have others : heard "z\n".toUTF8 = ["z"] := by
    rw [heard, Config.Json.toList_eq_data]
    rfl
  have parsed : parse "x;y" = .ok [.expression (.var ⟨"x", ⟨0, 1, "x"⟩⟩),
      .expression (.var ⟨"y", ⟨2, 3, "y"⟩⟩)] := by
    rw [parse, Lexeme.ofSource_eq_within]
    rfl
  have unregistered (function : Function) : ¬ Registers {} "x;y" function := by
    rw [Registers, given, parsed]
    intro registered
    cases List.mem_singleton.mp registered
  obtain ⟨_, _, behind⟩ := conversation_keeps_registered_functions input
  obtain ⟨shown, _, _, forgotten⟩ := behind [] "x;y" ["z"] read
  exact ⟨read, shown, forgotten unregistered _ others⟩

end Prompt

end FrameLang
