import FrameLang.CommandLine
import FrameLang.Proofs.Lexing
import FrameLang.Proofs.Limits
import FrameLang.Proofs.Outcomes
import FrameLang.Proofs.ProgramState

/-!
What the command line shows. It steps the program until no declaration is left, and goes on behind
those that fail: no failure of a declaration is fatal, as the context keeps every function under its
own signature. So the outputs are the values and the reports of all declarations in their order.
-/

set_option autoImplicit false

namespace FrameLang

/-!
## Stepping to the end
-/

namespace Program

/-- What comes of a program that is stepped until no declaration is left, one answer for each step. -/
inductive Steps : Program → List Answer → Prop where
  | done {program : Program} : program.step = none → Steps program []
  | next {program : Program} {progress : Progress Answer} {answers : List Answer} :
      program.step = some progress → Steps progress.program answers →
      Steps program (progress.result :: answers)

theorem steps_underWay (start : Context) (behind ahead : List Declaration) :
    (underWay start behind ahead).Steps ((start.after behind).answers ahead) := by
  induction ahead generalizing behind with
  | nil => exact .done (step_underWay_nil start behind)
  | cons declaration rest ih =>
      have others := ih (behind ++ [declaration])
      rw [Context.after_append] at others
      exact .next (step_underWay_cons start behind rest declaration) others

end Program

/-!
## Failures of declarations
-/

theorem Error.isFatal_of_ordinary {error : Error} (ordinary : error.cause.Ordinary) :
    error.isFatal = false := by
  obtain ⟨cause, span⟩ := error
  cases cause with
  | variableBound | functionDefined | unknownVariable | unknownFunction | depthExceeded => rfl
  | _ => cases ordinary

/-- Where every function is stored under its own signature, no declaration breaks a contract of the
evaluator. -/
theorem Declaration.not_fatal_of_failed {context : Context} (wellKeyed : context.WellKeyed)
    (declaration : Declaration) {error : Error}
    (failed : (declaration.process context).result = .error error) : error.isFatal = false := by
  cases declaration with
  | function definition =>
      obtain ⟨_, refused⟩ | ⟨_, _, refused⟩ | ⟨_, _, bound⟩ :=
        Declaration.process_function definition context
      · rw [refused] at failed
        cases failed
        rfl
      · rw [refused] at failed
        cases failed
        rfl
      · rw [bound] at failed
        cases failed
  | expression expr =>
      rw [(process_expression context expr).1] at failed
      cases ended : (expr.evaluate context).result with
      | ok value =>
          rw [ended] at failed
          cases failed
      | error other =>
          rw [ended] at failed
          cases failed
          have admits := Task.admits_of_failed ⟨expr, context⟩ ended
          exact Error.isFatal_of_ordinary (admits.ordinary wellKeyed)

theorem Context.WithinLimits.answers_not_fatal {config : Config} {calls : Nat} {context : Context}
    (within : context.WithinLimits config calls) (declarations : List Declaration) :
    ∀ error, .error error ∈ context.answers declarations → error.isFatal = false := by
  induction declarations generalizing context with
  | nil => simp [answers]
  | cons declaration rest ih =>
      intro error member
      rcases List.mem_cons.mp member with first | later
      · exact declaration.not_fatal_of_failed within.wellKeyed first.symm
      · exact ih (within.process declaration) error later

/-!
## What is shown
-/

namespace CommandLine

/-- The lines for the values of expressions. -/
def valueLines (answers : List Program.Answer) : List String :=
  answers.filterMap fun
    | .ok (some value) => some (value.text ++ "\n")
    | _ => none

/-- The lines for the declarations that failed. -/
def reportLines (answers : List Program.Answer) : List String :=
  answers.filterMap fun
    | .error error => some (error.report ++ "\n")
    | _ => none

/-- All answers, in their order. -/
def shown (answers : List Program.Answer) : Transcript where
  code := if answers.all Except.isOk then 0 else 1
  stdout := String.join (valueLines answers)
  stderr := String.join (reportLines answers)

/-- As long as nothing is fatal, all answers are shown. -/
theorem present_of_not_fatal {answers : List Program.Answer}
    (notFatal : ∀ error, .error error ∈ answers → error.isFatal = false) :
    present answers = shown answers := by
  induction answers with
  | nil => rfl
  | cons answer rest ih =>
      have others := ih fun error member => notFatal error (List.mem_cons_of_mem answer member)
      match answer with
      | .ok none => exact others
      | .ok (some value) =>
          have stdout : (shown (.ok (some value) :: rest)).stdout =
              value.text ++ "\n" ++ (shown rest).stdout := String.join_cons
          rw [present, others, Transcript.printing, ← stdout]
          rfl
      | .error error =>
          have stderr : (shown (.error error :: rest)).stderr =
              error.report ++ "\n" ++ (shown rest).stderr := String.join_cons
          have ordinary := notFatal error List.mem_cons_self
          rw [present, ordinary, if_neg Bool.false_ne_true, others, Transcript.complaining, ← stderr]
          rfl

variable {readFile : String → Option ByteArray} {programName : String} {rest : List String}
  {config : Config} {source : String}

/-- A program that can be read, with limits that can be loaded, is either refused as a whole, or it is
stepped once for each of its declarations. Then the outputs show what came of all of them, and the
exit code tells whether one failed. -/
theorem run_shows_drained_program (loads : loadConfig? readFile rest.head? = some config)
    (reads : (readFile programName).bind String.fromUTF8? = some source) :
    (∀ error, parse source = .error error →
      run readFile (programName :: rest) =
        { code := 1, stdout := "", stderr := error.report ++ "\n" }) ∧
    ∀ declarations, parse source = .ok declarations →
      let answers := (Program.ofConfig config declarations).drain.result
      (Program.ofConfig config declarations).Steps answers ∧
        answers.length = declarations.length ∧
        (∀ error, .error error ∈ answers → error.isFatal = false) ∧
        run readFile (programName :: rest) = shown answers := by
  have runs : run readFile (programName :: rest) = evaluate config source := by
    rw [run, loads, reads]
  rw [runs, evaluate]
  constructor
  · intro error refused
    have line : error.report ++ "\n" ++ "" = error.report ++ "\n" := String.append_empty
    rw [refused]
    exact congrArg (Transcript.mk 1 "") line
  · intro declarations parsed answers
    have drained : answers = Context.answers { config } declarations :=
      (Program.drain_underWay { config } [] declarations).1
    have notFatal : ∀ error, .error error ∈ answers → error.isFatal = false := by
      rw [drained]
      exact (Context.withinLimits_fresh config).answers_not_fatal declarations
    refine ⟨?_, ?_, notFatal, ?_⟩
    · rw [drained]
      exact Program.steps_underWay { config } [] declarations
    · rw [drained, Context.length_answers]
    · rw [parsed]
      exact present_of_not_fatal notFatal

/-- Only one file can be read, with the given text. -/
def onlyFile (text : String) (name : String) : Option ByteArray :=
  if name = "program.boi" then some text.toUTF8 else none

theorem onlyFile_reads (text : String) :
    (onlyFile text "program.boi").bind String.fromUTF8? = some text := by
  rw [onlyFile, if_pos rfl, Option.bind_some, String.fromUTF8?, String.toUTF8_eq_toByteArray,
    dif_pos text.isValidUTF8]
  rfl

theorem failure_does_not_end_run :
    loadConfig? (onlyFile "x;y") none = some {} ∧
      (onlyFile "x;y" "program.boi").bind String.fromUTF8? = some "x;y" ∧
      run (onlyFile "x;y") ["program.boi"] =
        { code := 1, stdout := "", stderr :=
            (Error.mk (.unknownVariable "x") ⟨0, 1, "x"⟩).report ++ "\n" ++
              ((Error.mk (.unknownVariable "y") ⟨2, 3, "y"⟩).report ++ "\n") } := by
  have loads : loadConfig? (onlyFile "x;y") ([] : List String).head? = some {} := rfl
  have reads := onlyFile_reads "x;y"
  have parsed : parse "x;y" = .ok [.expression (.var ⟨"x", ⟨0, 1, "x"⟩⟩),
      .expression (.var ⟨"y", ⟨2, 3, "y"⟩⟩)] := by
    rw [parse, Lexeme.ofSource_eq_within]
    rfl
  have shows := (run_shows_drained_program loads reads).2 _ parsed
  exact ⟨loads, reads, shows.2.2.2.trans rfl⟩

end CommandLine

end FrameLang
