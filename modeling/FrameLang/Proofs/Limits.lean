import FrameLang.Proofs.Moments

/-!
What never gets out of bounds. No operation takes the base frame away, goes beyond the limit on
frames or on calls, or loses count of the calls in progress, whatever the operations inside a scope
do to the frames and names that the scope is about.
-/

set_option autoImplicit false

namespace FrameLang

/-!
## Contexts
-/

namespace Context

/-- The context keeps the limits of the configuration while the given number of calls is in
progress. -/
structure WithinLimits (config : Config) (calls : Nat) (context : Context) : Prop where
  configured : context.config = config
  base : 1 ≤ context.frameDepth
  frames : context.frameDepth ≤ max 1 config.maxCallDepth.toNat
  counted : context.callDepth = calls
  calls : context.callDepth ≤ max 1 config.maxCallDepth.toNat - 1
  wellKeyed : context.WellKeyed

theorem withinLimits_fresh (config : Config) : WithinLimits config 0 { config } where
  configured := rfl
  base := Nat.le_refl 1
  frames := Nat.le_max_left 1 _
  counted := rfl
  calls := Nat.zero_le _
  wellKeyed := by
    rintro signature function ⟨frame, member, entry⟩
    cases List.mem_singleton.mp member
    cases entry

theorem WellKeyed.of_registers {context inner : Context} (wellKeyed : context.WellKeyed)
    (kept : ∀ signature function, inner.Registers signature function →
      context.Registers signature function) : inner.WellKeyed :=
  fun signature function registered => wellKeyed signature function (kept _ _ registered)

namespace WithinLimits

variable {config : Config} {calls : Nat} {context inner : Context}

/-- Neither sum that is compared with the limit leaves the words that the limit is drawn from. -/
theorem lt_size (within : context.WithinLimits config calls) :
    context.frameDepth < UInt64.size ∧ context.callDepth + 1 < UInt64.size := by
  have limit : config.maxCallDepth.toNat < UInt64.size := config.maxCallDepth.toNat_lt_size
  have one : 1 < UInt64.size := by decide
  have frames := within.frames
  have calls := within.calls
  omega

theorem mapCurrent (within : context.WithinLimits config calls) {change : Frame → Frame}
    (wellKeyed : (context.mapCurrent change).WellKeyed) :
    (context.mapCurrent change).WithinLimits config calls where
  configured := (config_mapCurrent ..).trans within.configured
  base := Nat.le_add_left 1 _
  frames := (frameDepth_mapCurrent ..).symm ▸ within.frames
  counted := (callDepth_mapCurrent ..).trans within.counted
  calls := (callDepth_mapCurrent ..).symm ▸ within.calls
  wellKeyed := wellKeyed

theorem mapVariables (within : context.WithinLimits config calls)
    (change : Bindings String Value → Bindings String Value) :
    (context.mapCurrent fun frame =>
      { frame with vars := change frame.vars }).WithinLimits config calls :=
  within.mapCurrent (within.wellKeyed.of_registers fun _ _ => (registers_mapCurrent_iff rfl).mp)

/-- Some of the topmost frames may go. -/
theorem dropFrames (within : context.WithinLimits config calls) (count : Nat) :
    ({ context with upper := context.upper.drop count } : Context).WithinLimits config calls where
  configured := within.configured
  base := Nat.le_add_left 1 _
  frames := by
    have frames := within.frames
    simp only [frameDepth, List.length_drop] at frames ⊢
    omega
  counted := within.counted
  calls := within.calls
  wellKeyed := by
    refine within.wellKeyed.of_registers ?_
    rintro signature function ⟨frame, member, entry⟩
    refine ⟨frame, ?_, entry⟩
    rcases List.mem_append.mp member with upper | base
    · exact List.mem_append_left _ (List.mem_of_mem_drop upper)
    · exact List.mem_append_right _ base

/-!
### Elementary actions
-/

theorem pushed (within : context.WithinLimits config calls)
    (room : ¬ context.limit ≤ context.frameDepth) :
    context.pushed.WithinLimits config calls where
  configured := within.configured
  base := Nat.le_add_left 1 _
  frames := by
    rw [limit, within.configured] at room
    change context.frameDepth + 1 ≤ _
    omega
  counted := within.counted
  calls := within.calls
  wellKeyed := by
    have opens : (Scope.frame Span.empty).opened context = .ok context.pushed :=
      Scope.opened_frame_ok_iff.mpr ⟨room, rfl⟩
    exact Scope.wellKeyed_of_opened opens within.wellKeyed

theorem pushFrame (within : context.WithinLimits config calls) (span : Span) :
    (Context.pushFrame span context).context.WithinLimits config calls := by
  rw [Context.pushFrame]
  split
  next => exact within
  next room => exact within.pushed room

theorem popFrame (within : context.WithinLimits config calls) :
    (Context.popFrame context).context.WithinLimits config calls := by
  rw [Context.popFrame]
  split
  next => exact within
  next top lower frames =>
    have dropped := within.dropFrames 1
    rwa [frames] at dropped

theorem bindVariable (within : context.WithinLimits config calls) (name : Name) (value : Value) :
    (Context.bindVariable name value context).context.WithinLimits config calls := by
  rw [Context.bindVariable]
  split
  next => exact within
  next => exact within.mapVariables (·.insert name.text value)

theorem unbindVariable (within : context.WithinLimits config calls) (name : Name) :
    (Context.unbindVariable name context).context.WithinLimits config calls := by
  rw [Context.unbindVariable]
  split
  next => exact within
  next => exact within.mapVariables (·.erase name.text)

theorem withFunction (within : context.WithinLimits config calls) (function : Function) :
    (context.withFunction function).WithinLimits config calls := by
  refine within.mapCurrent fun signature other registered => ?_
  rcases (registers_withFunction_iff function).mp registered with ⟨rfl, rfl⟩ | old
  · rfl
  · exact within.wellKeyed signature other old

theorem bindFunction (within : context.WithinLimits config calls) (function : Function) :
    (Context.bindFunction function context).context.WithinLimits config calls := by
  rw [Context.bindFunction]
  split
  next => exact within
  next => exact within.withFunction function

theorem unbindFunction (within : context.WithinLimits config calls) (function : Function) :
    (Context.unbindFunction function context).context.WithinLimits config calls := by
  rw [Context.unbindFunction]
  split
  next => exact within
  next =>
    have fewer : (context.mapCurrent fun frame =>
        { frame with functions := frame.functions.erase function.signature }).WellKeyed := by
      refine within.wellKeyed.of_registers fun signature other registered => ?_
      rw [registers_iff, current_mapCurrent, frames_mapCurrent] at registered
      exact registers_iff.mpr (registered.imp_left fun entry => (List.mem_filter.mp entry).1)
    exact within.mapCurrent fewer

theorem unbindEach (within : context.WithinLimits config calls) (names : List Name) :
    (Context.unbindEach names context).context.WithinLimits config calls := by
  induction names generalizing context with
  | nil => exact within
  | cons name rest ih =>
      rw [unbindEach_cons_context]
      exact ih (within.unbindVariable name)

theorem withArguments (within : context.WithinLimits config calls) {pairs : List (Name × Value)}
    (arrives : context.withArguments pairs = .ok inner) : inner.WithinLimits config calls := by
  induction pairs generalizing context with
  | nil =>
      cases arrives
      exact within
  | cons pair rest ih =>
      rw [Context.withArguments] at arrives
      split at arrives
      · cases arrives
      · exact ih (within.mapVariables (·.insert pair.1.text pair.2)) arrives

/-!
### Scopes
-/

/-- A scope is entered below the limit that it counts against. -/
theorem opened (within : context.WithinLimits config calls) {scope : Scope}
    (opens : scope.opened context = .ok inner) :
    inner.WithinLimits config (calls + scope.calls) := by
  cases scope with
  | call span =>
      obtain ⟨room, rfl⟩ := Scope.opened_call_ok_iff.mp opens
      refine { within with counted := congrArg (· + 1) within.counted, calls := ?_ }
      rw [limit, within.configured] at room
      change context.callDepth + 1 ≤ _
      omega
  | frame span =>
      obtain ⟨room, rfl⟩ := Scope.opened_frame_ok_iff.mp opens
      exact within.pushed room
  | var name value => exact within.withArguments opens
  | arguments parameters values =>
      exact within.withArguments (Scope.opened_arguments_ok_iff.mp opens).2
  | function definition =>
      obtain ⟨_, rfl⟩ := Scope.opened_function_ok_iff.mp opens
      exact within.withFunction definition

/-- Whatever has become of the frames and names inside, leaving takes back the one call at most. -/
theorem released {scope : Scope} (within : inner.WithinLimits config (calls + scope.calls))
    (outer : Nat) : (scope.released outer inner).WithinLimits config calls := by
  cases scope with
  | call span =>
      refine { within with counted := ?_, calls := ?_ }
      · change inner.callDepth - 1 = calls
        rw [within.counted]
        rfl
      · exact Nat.le_trans (Nat.sub_le _ 1) within.calls
  | frame span =>
      rw [Scope.released]
      split
      · exact within.popFrame
      · exact within.dropFrames _
  | var name value => exact within.unbindVariable name
  | arguments parameters values => exact within.unbindEach parameters.reverse
  | function definition => exact within.unbindFunction definition

end WithinLimits

end Context

/-!
## Operations and other work
-/

section Work

variable {config : Config}

theorem Context.WithinLimits.tidy {α : Type} {action : Action α} {calls : Nat} {context : Context}
    (within : context.WithinLimits config calls) (tidy : action.Tidy) :
    (action context).context.WithinLimits config calls :=
  (tidy.restores context).symm ▸ within

theorem Work.leaves_within_withinLimits {scope : Scope} {work : Work} {calls : Nat}
    {context : Context} (within : context.WithinLimits config calls)
    (inside : ∀ inner : Context, inner.WithinLimits config (calls + scope.calls) →
      (work.leaves inner).WithinLimits config (calls + scope.calls)) :
    ((Work.within scope work).leaves context).WithinLimits config calls := by
  cases opens : scope.opened context with
  | error error =>
      rw [leaves_within_of_error opens]
      exact within
  | ok inner =>
      rw [leaves_within_eq opens]
      exact (inside inner (within.opened opens)).released _

mutual

theorem Operation.perform_withinLimits (operation : Operation) {calls : Nat} {context : Context}
    (within : context.WithinLimits config calls) :
    (operation.perform context).context.WithinLimits config calls := by
  cases operation with
  | pushFrame span => exact within.pushFrame span
  | popFrame => exact within.popFrame
  | bindVariable name value => exact within.bindVariable name value
  | unbindVariable name => exact within.unbindVariable name
  | lookupVariable name => exact within.tidy (Context.lookupVariable_tidy name)
  | bindFunction function => exact within.bindFunction function
  | unbindFunction function => exact within.unbindFunction function
  | lookupFunction name arity => exact within.tidy (Context.lookupFunction_tidy name arity)
  | evaluate expr => exact within.tidy expr.evaluate_tidy
  | evaluateText source => exact within.tidy (evaluateText_tidy source)
  | test condition => exact within.tidy condition.evaluate_tidy
  | call function arguments span =>
      rw [Operation.perform]
      split
      next call _ => exact within.tidy call.evaluate_tidy
      next => exact within
  | within scope body =>
      change ((Work.operate (.within scope body)).leaves context).WithinLimits config calls
      rw [Work.leaves_operate_within]
      exact Work.leaves_within_withinLimits within fun inner inside =>
        body.perform_withinLimits inside

theorem Operations.perform_withinLimits (body : Operations) {calls : Nat} {context : Context}
    (within : context.WithinLimits config calls) :
    (body.perform context).context.WithinLimits config calls := by
  cases body with
  | done => exact within
  | next operation tolerated rest =>
      have first := operation.perform_withinLimits within
      obtain ⟨error, _, ends⟩ | ⟨_, ends⟩ :=
        Operations.perform_next operation tolerated rest context
      · rw [ends]
        exact first
      · rw [ends]
        exact rest.perform_withinLimits first

end

/-- No work goes beyond the limits or loses count of the calls, failing or not. -/
theorem Work.leaves_withinLimits (work : Work) {calls : Nat} {context : Context}
    (within : context.WithinLimits config calls) :
    (work.leaves context).WithinLimits config calls := by
  induction work generalizing calls context with
  | evaluate expr => exact within.tidy expr.evaluate_tidy
  | operate operation => exact operation.perform_withinLimits within
  | perform body => exact body.perform_withinLimits within
  | within scope work ih => exact leaves_within_withinLimits within fun inner inside => ih inside

/-!
## Moments
-/

namespace Work

variable {calls : Nat} {context : Context}

theorem Meets.withinLimits {work : Work} {state : Context} (meets : work.Meets context state)
    (within : context.WithinLimits config calls) : state.WithinLimits config calls := by
  cases meets with
  | start => exact within
  | finish => exact work.leaves_withinLimits within
  | binding count fits binds => exact within.withArguments (Context.withArguments_of_bindEach binds)
  | unwinding count undone fits binds =>
      exact (within.withArguments (Context.withArguments_of_bindEach binds)).unbindEach _
  | @unbinding _ _ work _ _ _ undone enters =>
      exact (work.leaves_withinLimits (within.opened (Scope.opened_of_enter enters))).unbindEach _

theorem Asks.withinLimits {outer inner : Work} {start : Context}
    (asks : Asks outer context inner start) (within : context.WithinLimits config calls) :
    start.WithinLimits config (calls + outer.calls) := by
  cases asks with
  | inside enters => exact within.opened (Scope.opened_of_enter enters)
  | @rest operation => exact operation.perform_withinLimits within
  | _ => exact within

theorem Passes.withinLimits {work : Work} {state : Context} {opened : Nat}
    (passes : work.Passes context opened state) (within : context.WithinLimits config calls) :
    state.WithinLimits config (calls + opened) :=
  passes.holds (Context.WithinLimits config) Meets.withinLimits Asks.withinLimits within

end Work

end Work

/-!
## Programs
-/

theorem Context.WithinLimits.process {config : Config} {calls : Nat} {context : Context}
    (within : context.WithinLimits config calls) (declaration : Declaration) :
    (declaration.process context).context.WithinLimits config calls := by
  cases declaration with
  | expression expr =>
      exact within.tidy (.bind expr.evaluate_tidy fun value => .done (some value))
  | function definition =>
      obtain ⟨_, refused⟩ | ⟨_, _, refused⟩ | ⟨_, _, bound⟩ :=
        Declaration.process_function definition context
      · rw [refused]
        exact within
      · rw [refused]
        exact within
      · rw [bound]
        exact within.withFunction definition

namespace Program

/-- The context keeps its limits, and no more was processed than was given. -/
structure WithinLimits (config : Config) (calls : Nat) (program : Program) : Prop where
  context : program.context.WithinLimits config calls
  processed : program.processed ≤ program.declarations.length

/-- No sum or difference that the program forms with its counters leaves the words they are kept
in: the two sums that are compared with the limit, the calls counted down at the end of a call, and
the pending declarations. -/
structure FitsWords (calls : Nat) (program : Program) : Prop where
  frames : program.context.frameDepth < UInt64.size
  entering : program.context.callDepth + 1 < UInt64.size
  leaving : 0 < calls → 0 < program.context.callDepth
  pending : program.processed ≤ program.declarations.length

section Steps

variable {config : Config} {calls : Nat} {program : Program}

theorem WithinLimits.fitsWords (within : program.WithinLimits config calls) :
    program.FitsWords calls where
  frames := within.context.lt_size.1
  entering := within.context.lt_size.2
  leaving := fun inCall => within.context.counted.symm ▸ inCall
  pending := within.processed

theorem WithinLimits.extend (within : program.WithinLimits config calls)
    (more : List Declaration) : (program.extend more).WithinLimits config calls where
  context := within.context
  processed := by
    rw [Program.extend, List.length_append]
    exact Nat.le_add_right_of_le within.processed

theorem WithinLimits.step (within : program.WithinLimits config calls) {progress : Progress Answer}
    (steps : program.step = some progress) : progress.program.WithinLimits config calls := by
  rw [Program.step] at steps
  split at steps
  next => cases steps
  next declaration next =>
    cases steps
    exact ⟨within.context.process declaration, (List.getElem?_eq_some_iff.mp next).1⟩

theorem WithinLimits.drainWithin (within : program.WithinLimits config calls) (count : Nat) :
    (program.drainWithin count).program.WithinLimits config calls := by
  induction count generalizing program with
  | zero => exact within
  | succ count ih =>
      rw [Program.drainWithin]
      split
      next => exact within
      next first steps => exact ih (within.step steps)

theorem WithinLimits.runWithin (within : program.WithinLimits config calls) (count : Nat) :
    (program.runWithin count).program.WithinLimits config calls := by
  induction count generalizing program with
  | zero => exact within
  | succ count ih =>
      rw [Program.runWithin]
      split
      next => exact within
      next first steps =>
        split
        next => exact within.step steps
        next => exact ih (within.step steps)

end Steps

end Program

namespace Command

variable {config : Config} {program : Program}

/-- Between commands no call is in progress. -/
theorem perform_withinLimits (within : program.WithinLimits config 0) (command : Command) :
    (command.perform program).program.WithinLimits config 0 := by
  cases command with
  | source text =>
      rw [perform]
      split
      next => exact within
      next declarations _ => exact within.extend declarations
  | extend declarations => exact within.extend declarations
  | step =>
      rw [perform]
      split
      next => exact within
      next progress steps => exact within.step steps
  | drain => exact within.drainWithin program.pending
  | run => exact within.runWithin program.pending
  | operate operation => exact ⟨operation.perform_withinLimits within.context, within.processed⟩

theorem TakesUp.withinLimits {command : Command} {reached : Program} {declaration : Declaration}
    (takesUp : TakesUp program command reached declaration)
    (within : program.WithinLimits config 0) :
    reached.WithinLimits config 0 ∧ reached.processed + 1 ≤ reached.declarations.length := by
  obtain ⟨⟨count, rfl⟩, _, next⟩ := takesUp
  exact ⟨within.drainWithin count, (List.getElem?_eq_some_iff.mp next).1⟩

theorem Passes.withinLimits {command : Command} {opened : Nat} {state : Program}
    (passes : command.Passes program opened state) (within : program.WithinLimits config 0) :
    state.WithinLimits config opened := by
  cases passes with
  | start => exact within
  | finish => exact command.perform_withinLimits within
  | reached takesUp => exact (takesUp.withinLimits within).1
  | taken takesUp =>
      obtain ⟨reached, more⟩ := takesUp.withinLimits within
      exact ⟨reached.context, more⟩
  | evaluating takesUp passes =>
      obtain ⟨reached, more⟩ := takesUp.withinLimits within
      exact ⟨Nat.zero_add opened ▸ passes.withinLimits reached.context, more⟩
  | operating passes =>
      exact ⟨Nat.zero_add opened ▸ passes.withinLimits within.context, within.processed⟩

end Command

namespace Program

variable {config : Config} {program : Program}

theorem WithinLimits.after (within : program.WithinLimits config 0) (commands : List Command) :
    (program.after commands).WithinLimits config 0 := by
  induction commands generalizing program with
  | nil => exact within
  | cons command rest ih => exact ih (command.perform_withinLimits within)

/-- Behind any commands, and at every moment of a further one, the program has its base frame and no
more frames than the limit allows, its call depth is the number of calls in progress and below the
limit, its functions are stored under their own names and numbers of parameters, and it has not
processed more than it was given. A limit of zero acts as a limit of one. -/
theorem limits_hold_at_every_moment (config : Config) (declarations : List Declaration)
    (commands : List Command) :
    let program := (ofConfig config declarations).after commands
    program.WithinLimits config 0 ∧
      ∀ (command : Command) (calls : Nat) (state : Program), command.Passes program calls state →
        state.WithinLimits config calls ∧ state.FitsWords calls := by
  intro program
  have fresh : (ofConfig config declarations).WithinLimits config 0 :=
    ⟨Context.withinLimits_fresh config, Nat.zero_le _⟩
  have within : program.WithinLimits config 0 := fresh.after commands
  refine ⟨within, ?_⟩
  intro command calls state passes
  have moment := passes.withinLimits within
  exact ⟨moment, moment.fitsWords⟩

def pushing : Operations := .next (.pushFrame Span.empty) false .done

/-- The context behind a push in a call that is still in progress. -/
def inCall : Context := { upper := [{}], callDepth := 1 }

theorem limits_hold_in_call :
    let command := Command.operate (.within (.call Span.empty) pushing)
    command.Passes (ofConfig {} []) 1 { context := inCall } ∧
      ({ context := inCall } : Program).WithinLimits {} 1 := by
  intro command
  have enters : (Scope.call Span.empty).enter {} =
      { result := .ok (), context := { callDepth := 1 } } := rfl
  have pushes : (Work.perform pushing).Passes { callDepth := 1 } 0 inCall := .itself .finish
  have inside : (Work.within (.call Span.empty) (.perform pushing)).Passes {} 1 inCall :=
    .during (.inside enters) pushes
  have passes : command.Passes (ofConfig {} []) 1 { context := inCall } :=
    .operating (.during .body inside)
  exact ⟨passes, ((limits_hold_at_every_moment {} [] []).2 command 1 _ passes).1⟩

end Program

end FrameLang
