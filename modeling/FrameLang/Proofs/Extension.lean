import FrameLang.Proofs.CallLimit
import FrameLang.Proofs.Watched

/-!
What an evaluation finds when it starts stays in place until it ends. Scopes only add to a context:
they count a call, push a frame, or bind a name in the topmost frame that has no such name yet. They
are left in the opposite order. So each context on the way consists of the one at the start and of
what the scopes that are open have added to it.
-/

set_option autoImplicit false

namespace FrameLang

/-!
## Contexts with additions
-/

/-- Every binding of the first frame is a binding of the second one. -/
structure Frame.HeldBy (first second : Frame) : Prop where
  vars : ∀ name value, first.vars.find? name = some value → second.vars.find? name = some value
  functions : ∀ signature function, first.functions.find? signature = some function →
    second.functions.find? signature = some function

theorem Frame.HeldBy.refl (frame : Frame) : frame.HeldBy frame :=
  ⟨fun _ _ found => found, fun _ _ found => found⟩

theorem Frame.HeldBy.trans {first second third : Frame} (held : first.HeldBy second)
    (further : second.HeldBy third) : first.HeldBy third :=
  ⟨fun name value found => further.vars name value (held.vars name value found),
    fun signature function found =>
      further.functions signature function (held.functions signature function found)⟩

namespace Context

/-- The other context has the frames below the topmost one, has the bindings of that in the next
frame, and may have frames on top of it. Neither the frames nor the calls in progress have become
fewer, and frames have only been added up to the limit. -/
structure ExtendedBy (start state : Context) : Prop where
  frames : ∃ newer kept, state.frames = newer ++ kept :: start.frames.tail ∧
    start.current.HeldBy kept
  deep : start.frameDepth ≤ state.frameDepth
  bounded : state.frameDepth ≤ max start.frameDepth start.limit
  calls : start.callDepth ≤ state.callDepth
  config : state.config = start.config

namespace ExtendedBy

variable {start middle state : Context}

theorem refl (context : Context) : context.ExtendedBy context where
  frames := ⟨[], context.current, context.frames_eq, .refl _⟩
  deep := Nat.le_refl _
  bounded := Nat.le_max_left _ _
  calls := Nat.le_refl _
  config := rfl

theorem trans (first : start.ExtendedBy middle) (second : middle.ExtendedBy state) :
    start.ExtendedBy state where
  frames := by
    obtain ⟨newer, kept, split, held⟩ := first.frames
    obtain ⟨newest, top, splitTop, heldTop⟩ := second.frames
    rw [frames_eq] at split
    cases newer with
    | nil =>
        -- The topmost frame of the start is still the topmost one in the middle.
        obtain ⟨rfl, lower⟩ := List.cons.inj split
        exact ⟨newest, top, lower ▸ splitTop, held.trans heldTop⟩
    | cons frame newer =>
        obtain ⟨-, lower⟩ := List.cons.inj split
        refine ⟨newest ++ top :: newer, kept, ?_, held⟩
        rw [splitTop, lower, List.append_assoc]
        rfl
  deep := Nat.le_trans first.deep second.deep
  bounded := by
    have same : middle.limit = start.limit := by rw [limit, limit, first.config]
    have low := first.bounded
    have high := second.bounded
    rw [same] at high
    omega
  calls := Nat.le_trans first.calls second.calls
  config := second.config.trans first.config

/-- A change of the topmost frame that keeps its bindings. -/
theorem mapCurrent (context : Context) {change : Frame → Frame}
    (held : context.current.HeldBy (change context.current)) :
    context.ExtendedBy (context.mapCurrent change) where
  frames := ⟨[], change context.current, frames_mapCurrent change context, held⟩
  deep := Nat.le_of_eq (frameDepth_mapCurrent change context).symm
  bounded := by
    rw [frameDepth_mapCurrent]
    exact Nat.le_max_left _ _
  calls := Nat.le_of_eq (callDepth_mapCurrent change context).symm
  config := config_mapCurrent change context

theorem counted (context : Context) : context.ExtendedBy context.counted where
  frames := ⟨[], context.current, context.frames_eq, .refl _⟩
  deep := Nat.le_refl _
  bounded := Nat.le_max_left _ _
  calls := Nat.le_succ _
  config := rfl

theorem pushed {context : Context} (room : ¬context.limit ≤ context.frameDepth) :
    context.ExtendedBy context.pushed where
  frames := by
    have split := congrArg (List.cons ({} : Frame)) context.frames_eq
    exact ⟨[{}], context.current, split, .refl _⟩
  deep := Nat.le_succ _
  bounded := Nat.le_trans (Nat.lt_of_not_le room) (Nat.le_max_right _ _)
  calls := Nat.le_refl _
  config := rfl

theorem withVariable {context : Context} {name : String}
    (fresh : context.current.vars.find? name = none) (value : Value) :
    context.ExtendedBy (context.withVariable name value) := by
  refine mapCurrent context ⟨fun other held found => ?_, fun _ _ found => found⟩
  have different : name ≠ other := by
    rintro rfl
    rw [fresh] at found
    cases found
  exact (Bindings.find?_insert_of_ne _ different value).trans found

theorem withFunction {context : Context} {function : Function}
    (fresh : context.current.functions.find? function.signature = none) :
    context.ExtendedBy (context.withFunction function) := by
  refine mapCurrent context ⟨fun _ _ found => found, fun other held found => ?_⟩
  have different : function.signature ≠ other := by
    rintro rfl
    rw [fresh] at found
    cases found
  exact (Bindings.find?_insert_of_ne _ different function).trans found

theorem withArguments {context inner : Context} {pairs : List (Name × Value)}
    (arrives : context.withArguments pairs = .ok inner) : context.ExtendedBy inner := by
  induction pairs generalizing context with
  | nil =>
      cases arrives
      exact .refl _
  | cons pair rest ih =>
      rw [Context.withArguments] at arrives
      split at arrives
      · cases arrives
      next fresh => exact (withVariable fresh _).trans (ih arrives)

end ExtendedBy

end Context

theorem Scope.extendedBy_of_opened {scope : Scope} {context inner : Context}
    (opens : scope.opened context = .ok inner) : context.ExtendedBy inner := by
  cases scope with
  | call span =>
      obtain ⟨_, rfl⟩ := opened_call_ok_iff.mp opens
      exact .counted context
  | frame span =>
      obtain ⟨room, rfl⟩ := opened_frame_ok_iff.mp opens
      exact .pushed room
  | var name value =>
      obtain ⟨fresh, rfl⟩ := opened_var_ok_iff.mp opens
      exact .withVariable fresh value
  | arguments parameters values =>
      exact .withArguments (opened_arguments_ok_iff.mp opens).2
  | function definition =>
      obtain ⟨fresh, rfl⟩ := opened_function_ok_iff.mp opens
      exact .withFunction fresh

/-!
## Nested frames
-/

/-- The event tells that a frame was pushed or popped. -/
def Event.MovesFrames : Event → Prop
  | pushedFrame _ | poppedFrame _ => True
  | _ => False

/-- Each frame that is pushed on top of `depth` frames is popped again, and what happens in between
happens in the same way one frame higher. -/
inductive Nested : Nat → List Event → Prop where
  | nil {depth} : Nested depth []
  | beside {depth event rest} :
      ¬event.MovesFrames → Nested depth rest → Nested depth (event :: rest)
  | frame {depth inner rest} :
      Nested (depth + 1) inner → Nested depth rest →
      Nested depth (.pushedFrame (depth + 1) :: inner ++ .poppedFrame depth :: rest)

namespace Nested

variable {depth : Nat} {first second : List Event}

theorem append (nested : Nested depth first) (further : Nested depth second) :
    Nested depth (first ++ second) := by
  induction nested with
  | nil => exact further
  | beside other _ ih => exact .beside other (ih further)
  | @frame depth inner rest nestedInner _ _ ih =>
      rw [List.append_assoc]
      exact .frame nestedInner (ih further)

theorem single {event : Event} (other : ¬event.MovesFrames) : Nested depth [event] :=
  .beside other .nil

theorem boundEvents (context : Context) (pairs : List (Name × Value)) :
    Nested depth (context.boundEvents pairs) := by
  induction pairs generalizing context with
  | nil => exact .nil
  | cons pair rest ih =>
      rw [Context.boundEvents]
      split
      · exact .nil
      · exact .beside id (ih _)

theorem opening (scope : Scope) (context : Context)
    (noFrame : ∀ span, scope ≠ .frame span) : Nested depth (scope.opening context) := by
  cases scope with
  | call span => exact .nil
  | frame span => exact absurd rfl (noFrame span)
  | var name value => exact .boundEvents context _
  | arguments parameters values =>
      rw [Scope.opening]
      split
      · exact .boundEvents context _
      · exact .nil
  | function definition =>
      rw [Scope.opening]
      split
      · exact .nil
      · exact .single id

/-- What is reported inside a scope is nested in what the scope itself reports. -/
theorem around {scope : Scope} {context inner : Context} {events : List Event}
    (opens : scope.opened context = .ok inner) (nested : Nested inner.frameDepth events) :
    Nested context.frameDepth (scope.opening context ++ (events ++ scope.closing context)) := by
  cases scope with
  | frame span =>
      obtain ⟨room, rfl⟩ := Scope.opened_frame_ok_iff.mp opens
      rw [Scope.opening, if_neg room]
      exact .frame nested .nil
  | call span =>
      obtain ⟨_, rfl⟩ := Scope.opened_call_ok_iff.mp opens
      exact nested.append .nil
  | var | arguments | function =>
      have same := (Scope.sameCounters_of_opened opens trivial).frames
      rw [same] at nested
      exact (opening _ context (by rintro _ ⟨⟩)).append (nested.append .nil)

theorem refused {scope : Scope} {context : Context} {error : Error}
    (refused : scope.opened context = .error error) :
    Nested context.frameDepth (scope.opening context) := by
  cases scope with
  | frame span =>
      obtain ⟨deep, _⟩ := Scope.opened_frame_error_iff.mp refused
      rw [Scope.opening, if_pos deep]
      exact .nil
  | call | var | arguments | function => exact opening _ context (by rintro _ ⟨⟩)

end Nested

/-!
## Sights above a context
-/

/-- What is seen begins and ends with an extension of the context, and is at most one event. -/
structure Sight.Above (start : Context) (sight : Sight) : Prop where
  before : start.ExtendedBy sight.before
  after : start.ExtendedBy sight.after
  single : sight.events.length ≤ 1

theorem Sight.Above.of_extendedBy {start context : Context} {sight : Sight}
    (above : sight.Above context) (extended : start.ExtendedBy context) : sight.Above start :=
  ⟨extended.trans above.before, extended.trans above.after, above.single⟩

namespace Watched

/-- Unbinding the names leads from the context to the start, and all that is seen on the way is
above the start. -/
structure UnwindsTo (start : Context) (names : List Name) (context : Context) : Prop where
  unwinds : Context.Unwinds names context start
  above : ∀ sight ∈ (unbindEach names).sights context, sight.Above start

variable {start context : Context}

theorem UnwindsTo.nil (context : Context) : UnwindsTo context [] context := by
  refine ⟨.nil context, ?_⟩
  intro sight member
  cases member

theorem UnwindsTo.cons {names : List Name} {name : Name} {value : Value}
    (unwinds : UnwindsTo start names context) (extended : start.ExtendedBy context)
    (fresh : context.current.vars.find? name.text = none) :
    UnwindsTo start (name :: names) (context.withVariable name.text value) := by
  refine ⟨unwinds.unwinds.cons fresh, ?_⟩
  intro sight member
  have bound := extended.trans (.withVariable fresh value)
  have rest : Context.unbindEach names context = { result := .ok (), context := start } :=
    unwinds.unwinds
  rw [unbindEach, mem_sights_attempt_bind, mem_sights_step, step_act,
    Context.unbindVariable_withVariable fresh, mem_sights_attempt_bind, unbindEach_act, rest]
    at member
  rcases member with rfl | inner | last
  · exact ⟨bound, extended, Nat.zero_le _⟩
  · exact unwinds.above sight inner
  · cases mem_sights_step.mp last
    exact ⟨.refl start, .refl start, Nat.zero_le _⟩

/-- Each parameter that is bound can be unbound again, and the ones before it too. -/
theorem UnwindsTo.withArguments {bound : List Name} {pairs : List (Name × Value)} {inner : Context}
    (unwinds : UnwindsTo start bound context) (extended : start.ExtendedBy context)
    (arrives : context.withArguments pairs = .ok inner) :
    UnwindsTo start ((pairs.map Prod.fst).reverse ++ bound) inner := by
  induction pairs generalizing context bound with
  | nil =>
      cases arrives
      exact unwinds
  | cons pair rest ih =>
      obtain ⟨name, value⟩ := pair
      cases found : context.current.vars.find? name.text with
      | some old => simp only [Context.withArguments, found, reduceCtorEq] at arrives
      | none =>
          simp only [Context.withArguments, found] at arrives
          have further := ih (unwinds.cons extended found)
            (extended.trans (.withVariable found value)) arrives
          simpa only [List.map_cons, List.reverse_cons, List.append_assoc, List.singleton_append]
            using further

theorem bindEach_above {bound : List Name} (unwinds : UnwindsTo start bound context)
    (extended : start.ExtendedBy context) (pairs : List (Name × Value)) :
    ∀ sight ∈ (bindEach bound pairs).sights context, sight.Above start := by
  induction pairs generalizing context bound with
  | nil =>
      intro sight member
      cases member
  | cons pair rest ih =>
      obtain ⟨name, value⟩ := pair
      intro sight member
      rw [bindEach, mem_sights_attempt_bind, mem_sights_step, step_act] at member
      cases found : context.current.vars.find? name.text with
      | some old =>
          have undone : Context.unbindEach bound context = { result := .ok (), context := start } :=
            unwinds.unwinds
          rw [Context.bindVariable_of_taken found, mem_sights_attempt_bind, unbindEach_act, undone]
            at member
          rcases member with rfl | unwound | last
          · exact ⟨extended, extended, Nat.zero_le _⟩
          · exact unwinds.above sight unwound
          · cases mem_sights_step.mp last
            exact ⟨.refl start, .refl start, Nat.zero_le _⟩
      | none =>
          rw [Context.bindVariable_of_fresh found] at member
          have further := extended.trans (.withVariable found value)
          rcases member with rfl | inner
          · exact ⟨extended, further, Nat.le_refl _⟩
          · exact ih (unwinds.cons extended found) further sight inner

theorem opening_single {scope : Scope}
    (noRow : ∀ parameters values, scope ≠ .arguments parameters values) (context : Context) :
    (scope.opening context).length ≤ 1 := by
  cases scope with
  | call span => exact Nat.zero_le 1
  | frame span =>
      rw [Scope.opening]
      split
      · exact Nat.zero_le 1
      · exact Nat.le_refl 1
  | var name value =>
      rw [Scope.opening, Context.boundEvents]
      split
      · exact Nat.zero_le 1
      · exact Nat.le_refl 1
  | arguments parameters values => exact absurd rfl (noRow parameters values)
  | function definition =>
      rw [Scope.opening]
      split
      · exact Nat.zero_le 1
      · exact Nat.le_refl 1

theorem enter_above (scope : Scope) (context : Context) :
    ∀ sight ∈ (enter scope).sights context, sight.Above context := by
  have alone (noRow : ∀ parameters values, scope ≠ .arguments parameters values) :
      Sight.Above context
        (.acts context (scope.enter context).events (scope.enter context).context) := by
    refine ⟨.refl context, ?_, ?_⟩
    · cases opens : scope.opened context with
      | ok inner =>
          obtain ⟨_, arrived, _⟩ := Scope.enter_of_ok opens
          exact arrived ▸ Scope.extendedBy_of_opened opens
      | error error =>
          obtain ⟨_, stayed, _⟩ := Scope.enter_of_error opens
          change context.ExtendedBy (scope.enter context).context
          rw [stayed]
          exact .refl context
    · exact scope.enter_events context ▸ opening_single noRow context
  intro sight member
  cases scope with
  | arguments parameters values =>
      rw [enter] at member
      split at member
      · exact bindEach_above (.nil context) (.refl context) _ sight member
      · cases mem_sights_step.mp member
        exact ⟨.refl context, .refl context, Nat.zero_le 1⟩
  | call | frame | var | function =>
      cases mem_sights_step.mp member
      exact alone (by rintro _ _ ⟨⟩)

theorem leave_above {α : Type} {scope : Scope} {inner : Context}
    (opens : scope.opened context = .ok inner) (result : Except Error α) :
    ∀ sight ∈ (leave context.upper.length result scope).sights inner, sight.Above context := by
  have extended := Scope.extendedBy_of_opened opens
  have left := Scope.leave_of_ok opens result
  intro sight member
  cases scope with
  | arguments parameters values =>
      obtain ⟨same, arrives⟩ := Scope.opened_arguments_ok_iff.mp opens
      have unwinds := (UnwindsTo.nil context).withArguments (.refl context) arrives
      rw [List.append_nil, List.map_fst_zip (Nat.le_of_eq same)] at unwinds
      have undone : Context.unbindEach parameters.reverse inner = { result := .ok (), context } :=
        unwinds.unwinds
      rw [leave, mem_sights_attempt_bind, unbindEach_act, undone] at member
      rcases member with unwound | last
      · exact unwinds.above sight unwound
      · cases mem_sights_step.mp last
        rw [Action.release_ok]
        cases result <;> exact ⟨.refl context, .refl context, Nat.zero_le 1⟩
  | call | frame | var | function =>
      cases mem_sights_step.mp member
      rw [left]
      exact ⟨extended, .refl context, by simp [Sight.events, Scope.closing]⟩

/-!
## Evaluation
-/

theorem lookupVariable_silent (name : Name) (context : Context) :
    (Context.lookupVariable name context).events = [] := by
  rw [Context.lookupVariable]
  split <;> rfl

theorem lookupFunction_silent (name : Name) (arity : Nat) (context : Context) :
    (Context.lookupFunction name arity context).events = [] := by
  rw [Context.lookupFunction]
  split <;> rfl

/-- The action leaves no trace, all that is seen of it is above the context that it starts in, and
its frames are nested. -/
structure StaysAbove {α : Type} (watched : Watched α) : Prop where
  tidy : watched.act.Tidy
  above : ∀ context, ∀ sight ∈ watched.sights context, sight.Above context
  nested : ∀ context, Nested context.frameDepth (watched.act context).events

namespace StaysAbove

variable {α β : Type}

/-- An elementary action that leaves the context alone and reports at most one event. -/
theorem step {action : Action α} (tidy : action.Tidy)
    (single : ∀ context, (action context).events.length ≤ 1)
    (nested : ∀ context, Nested context.frameDepth (action context).events) :
    StaysAbove (Watched.step action) where
  tidy := tidy
  above context sight member := by
    cases mem_sights_step.mp member
    refine ⟨.refl context, ?_, single context⟩
    change context.ExtendedBy (action context).context
    rw [tidy.restores]
    exact .refl context
  nested := nested

theorem silent {action : Action α} (tidy : action.Tidy)
    (silent : ∀ context, (action context).events = []) : StaysAbove (Watched.step action) :=
  step tidy (fun context => silent context ▸ Nat.zero_le 1) fun context => silent context ▸ .nil

theorem takeUp (expr : Expr) : StaysAbove (Watched.takeUp expr) where
  tidy := .done ()
  above context sight member := by
    cases List.mem_singleton.mp member
    exact ⟨.refl context, .refl context, Nat.zero_le 1⟩
  nested _ := .nil

theorem done (value : α) : StaysAbove (pure value) where
  tidy := .done value
  above _ _ member := by cases member
  nested _ := .nil

theorem bind {first : Watched α} {next : α → Watched β} (firstStays : StaysAbove first)
    (nextStays : ∀ value, StaysAbove (next value)) : StaysAbove (first >>= next) where
  tidy := firstStays.tidy.bind fun value => (nextStays value).tidy
  above context sight member := by
    rcases mem_sights_bind.mp member with inFirst | ⟨value, _, inNext⟩
    · exact firstStays.above context sight inFirst
    · rw [firstStays.tidy.restores] at inNext
      exact (nextStays value).above context sight inNext
  nested context := by
    have first := firstStays.nested context
    rw [bind_act]
    cases ended : (Watched.act _ context).result with
    | error error =>
        rw [Action.bind_of_error ended]
        exact first
    | ok value =>
        rw [Action.bind_of_ok ended, firstStays.tidy.restores]
        exact first.append ((nextStays value).nested context)

theorem around {work : Watched α} (workStays : StaysAbove work) (scope : Scope) :
    StaysAbove (Watched.around scope work) where
  tidy := by
    rw [around_act]
    exact Scope.around_tidy scope workStays.tidy
  above context sight member := by
    rw [Watched.around, mem_sights_bind, mem_sights_step] at member
    rcases member with rfl | ⟨_, ⟨⟩, member⟩
    · exact ⟨.refl context, .refl context, Nat.zero_le 1⟩
    rcases mem_sights_bind.mp member with entering | ⟨_, entered, member⟩
    · exact enter_above scope context sight entering
    rw [enter_act] at entered member
    change (scope.enter context).result = _ at entered
    change sight ∈ Watched.sights _ (scope.enter context).context at member
    cases opens : scope.opened context with
    | error error =>
        rw [(Scope.enter_of_error opens).1] at entered
        cases entered
    | ok inner =>
        rw [(Scope.enter_of_ok opens).2.1, mem_sights_attempt_bind, workStays.tidy.restores]
          at member
        rcases member with inside | leaving
        · have extended := Scope.extendedBy_of_opened opens
          exact (workStays.above inner sight inside).of_extendedBy extended
        · exact leave_above opens _ sight leaving
  nested context := by
    rw [around_act, Scope.around_events workStays.tidy]
    cases opens : scope.opened context with
    | ok inner => exact .around opens (workStays.nested inner)
    | error error => exact (Nested.refused opens).append .nil

variable {evaluate : Expr → Watched Value} (stays : ∀ expr, StaysAbove (evaluate expr))

include stays

theorem call (armed : ArmedCall) : StaysAbove (Watched.call evaluate armed) := by
  have reads : StaysAbove (Watched.step Action.current) :=
    silent ⟨fun _ => rfl, fun _ => quiet_nil⟩ fun _ => rfl
  have reports (depth : Nat) :
      StaysAbove (Watched.step
        (Action.emit (.callingFunction armed.function depth armed.span))) :=
    step ⟨fun _ => rfl, fun _ => by simp [Action.emit, Quiet]⟩ (fun _ => Nat.le_refl 1)
      fun _ => .single id
  have body := (stays armed.function.body).around
    (.arguments armed.function.parameters armed.arguments)
  refine reads.bind fun context => (reports context.callDepth).bind fun _ => ?_
  refine around ?_ (.call armed.span)
  split
  · exact body
  · exact body.around (.frame armed.span)

theorem condition (tested : Condition) : StaysAbove (Watched.condition evaluate tested) := by
  cases tested with
  | truthy operand span => exact (stays operand).bind fun value => .done _
  | comparison op left right span =>
      exact (stays left).bind fun leftValue => (stays right).bind fun rightValue => .done _

theorem each (arguments : List Expr) : StaysAbove (Watched.each evaluate arguments) := by
  induction arguments with
  | nil => exact .done []
  | cons argument rest ih => exact (stays argument).bind fun value => ih.bind fun values => .done _

theorem node (expr : Expr) : StaysAbove (Watched.node evaluate expr) := by
  cases expr with
  | literal value => exact .done value
  | var name => exact .silent (Context.lookupVariable_tidy name) (lookupVariable_silent name)
  | additive op left right span =>
      exact (stays left).bind fun leftValue => (stays right).bind fun rightValue => .done _
  | letIn name value body span =>
      exact (stays value).bind fun bound => (stays body).around (.var name bound)
  | lambda function usage span => exact (stays usage).around (.function function)
  | call name arguments span =>
      have finds := silent (Context.lookupFunction_tidy name arguments.length)
        (lookupFunction_silent name arguments.length)
      refine finds.bind fun function => (each stays arguments).bind fun values => ?_
      have arms : StaysAbove (Watched.step (Action.ofExcept (function.arm values span))) := by
        refine silent (.ofExcept _) fun context => ?_
        cases function.arm values span <;> rfl
      exact arms.bind fun armed => call stays armed
  | ifThenElse tested whenTrue whenFalse span =>
      refine (condition stays tested).bind fun truth => ?_
      cases truth with
      | true => exact stays whenTrue
      | false => exact stays whenFalse

omit stays

theorem within (budget : Nat) (expr : Expr) : StaysAbove (Watched.within budget expr) := by
  induction budget generalizing expr with
  | zero => exact .silent (.fail _) fun _ => rfl
  | succ budget ih => exact (takeUp expr).bind fun _ => node ih expr

end StaysAbove

end Watched

theorem Expr.watch_staysAbove (expr : Expr) : Watched.StaysAbove expr.watch where
  tidy := expr.evaluate_tidy
  above context := (Watched.StaysAbove.within _ expr).above context
  nested context := by
    have nested := (Watched.StaysAbove.within (context.budget expr.height) expr).nested context
    rwa [Watched.within_act] at nested

/-- An evaluation is seen without a gap, and every event of it is seen on its own. Whenever an
expression is taken up or an elementary action starts or ends, the frames of the start are still
there: those below the topmost one unchanged, and that one with all its bindings. Frames and calls
in progress are never fewer than at the start, and the frames never come to more than the limit
unless they did at the start. Frames are pushed and popped in nested pairs. -/
theorem evaluation_only_adds (expr : Expr) (context : Context) :
    let sights := expr.watch.sights context
    let outcome := expr.evaluate context
    Sight.Path context sights outcome.context ∧ sights.flatMap Sight.events = outcome.events ∧
      (∀ sight ∈ sights, sight.events.length ≤ 1 ∧
        context.ExtendedBy sight.before ∧ context.ExtendedBy sight.after) ∧
      Nested context.frameDepth outcome.events := by
  intro sights outcome
  have stays := expr.watch_staysAbove
  refine ⟨expr.watch.path context, expr.watch.events_eq context, ?_, stays.nested context⟩
  intro sight member
  have above := stays.above context sight member
  exact ⟨above.single, above.before, above.after⟩

end FrameLang
