import FrameLang.Proofs.Moments

/-!
What lies below the topmost frame. Every write goes to the topmost frame, so a frame further down can
only change after those above it are gone. As long as the stack does not become lower than some depth,
the frames below that depth stay as they are, whatever is bound, pushed and popped above them.
-/

set_option autoImplicit false

namespace FrameLang

/-!
## Frames below the topmost one
-/

namespace Context

theorem length_frames (context : Context) : context.frames.length = context.frameDepth := by
  simp [frames, frameDepth]

/-- So many frames from the bottom of the stack, the base last. -/
def lowest (count : Nat) (context : Context) : List Frame :=
  context.frames.drop (context.frameDepth - count)

/-- The frames lie, in this order, at the bottom of the stack and below its topmost frame. -/
def StandsOn (lower : List Frame) (context : Context) : Prop := lower <:+ context.frames.tail

theorem standsOn_iff {lower : List Frame} {context : Context} :
    context.StandsOn lower ↔ lower <:+ context.frames ∧ lower.length < context.frameDepth := by
  have whole : context.frames.tail <:+ context.frames := List.tail_suffix context.frames
  have length : context.frames.tail.length + 1 = context.frameDepth := by
    simp [← length_frames, frames]
  constructor
  · intro stands
    have within := stands.length_le
    exact ⟨stands.trans whole, by omega⟩
  · rintro ⟨suffix, deep⟩
    exact List.suffix_of_suffix_length_le suffix whole (by omega)

theorem standsOn_lowest {context : Context} {count : Nat} (deep : count < context.frameDepth) :
    (context.lowest count).length = count ∧ context.StandsOn (context.lowest count) := by
  have length : (context.lowest count).length = count := by
    rw [lowest, List.length_drop, length_frames]
    omega
  have suffix : context.lowest count <:+ context.frames := List.drop_suffix _ _
  exact ⟨length, standsOn_iff.mpr ⟨suffix, length.symm ▸ deep⟩⟩

namespace StandsOn

variable {lower : List Frame} {context inner : Context}

theorem deep (stands : context.StandsOn lower) : lower.length < context.frameDepth :=
  (standsOn_iff.mp stands).2

theorem lowest_eq (stands : context.StandsOn lower) : context.lowest lower.length = lower := by
  obtain ⟨suffix, _⟩ := standsOn_iff.mp stands
  rw [lowest, ← length_frames]
  exact (List.suffix_iff_eq_drop.mp suffix).symm

/-!
### Writes
-/

theorem mapCurrent (stands : context.StandsOn lower) (change : Frame → Frame) :
    (context.mapCurrent change).StandsOn lower := by
  rwa [StandsOn, frames_mapCurrent]

theorem pushed (stands : context.StandsOn lower) : context.pushed.StandsOn lower :=
  stands.trans (List.tail_suffix context.frames)

/-- Frames may go from the top of the stack, as long as one is left above. -/
theorem dropFrames (stands : context.StandsOn lower) (count : Nat) :
    let fewer : Context := { context with upper := context.upper.drop count }
    lower.length < fewer.frameDepth → fewer.StandsOn lower := by
  intro fewer deep
  have suffix : fewer.frames <:+ context.frames :=
    (List.suffix_append_inj_of_length_eq rfl).mpr ⟨List.drop_suffix _ _, rfl⟩
  have short : lower.length ≤ fewer.frames.length := by
    rw [length_frames]
    exact Nat.le_of_lt deep
  exact standsOn_iff.mpr
    ⟨List.suffix_of_suffix_length_le (standsOn_iff.mp stands).1 suffix short, deep⟩

/-!
### Elementary actions
-/

theorem pushFrame (stands : context.StandsOn lower) (span : Span) :
    (Context.pushFrame span context).context.StandsOn lower := by
  rw [Context.pushFrame]
  split
  next => exact stands
  next => exact stands.pushed

theorem popFrame (stands : context.StandsOn lower)
    (deep : lower.length < (Context.popFrame context).context.frameDepth) :
    (Context.popFrame context).context.StandsOn lower := by
  unfold Context.popFrame at deep ⊢
  split at deep
  next => exact stands
  next top rest frames =>
    have fewer := stands.dropFrames 1
    rw [frames] at fewer
    exact fewer deep

theorem bindVariable (stands : context.StandsOn lower) (name : Name) (value : Value) :
    (Context.bindVariable name value context).context.StandsOn lower := by
  rw [Context.bindVariable]
  split
  next => exact stands
  next => exact stands.mapCurrent _

theorem unbindVariable (stands : context.StandsOn lower) (name : Name) :
    (Context.unbindVariable name context).context.StandsOn lower := by
  rw [Context.unbindVariable]
  split
  next => exact stands
  next => exact stands.mapCurrent _

theorem bindFunction (stands : context.StandsOn lower) (function : Function) :
    (Context.bindFunction function context).context.StandsOn lower := by
  rw [Context.bindFunction]
  split
  next => exact stands
  next => exact stands.mapCurrent _

theorem unbindFunction (stands : context.StandsOn lower) (function : Function) :
    (Context.unbindFunction function context).context.StandsOn lower := by
  rw [Context.unbindFunction]
  split
  next => exact stands
  next => exact stands.mapCurrent _

theorem unbindEach (stands : context.StandsOn lower) (names : List Name) :
    (Context.unbindEach names context).context.StandsOn lower := by
  induction names generalizing context with
  | nil => exact stands
  | cons name rest ih =>
      rw [unbindEach_cons_context]
      exact ih (stands.unbindVariable name)

theorem withArguments (stands : context.StandsOn lower) {pairs : List (Name × Value)}
    (arrives : context.withArguments pairs = .ok inner) : inner.StandsOn lower := by
  induction pairs generalizing context with
  | nil =>
      cases arrives
      exact stands
  | cons pair rest ih =>
      rw [Context.withArguments] at arrives
      split at arrives
      · cases arrives
      · exact ih (stands.mapCurrent _) arrives

/-!
### Scopes
-/

theorem opened (stands : context.StandsOn lower) {scope : Scope}
    (opens : scope.opened context = .ok inner) : inner.StandsOn lower := by
  cases scope with
  | call span =>
      obtain ⟨_, rfl⟩ := Scope.opened_call_ok_iff.mp opens
      exact stands
  | frame span =>
      obtain ⟨_, rfl⟩ := Scope.opened_frame_ok_iff.mp opens
      exact stands.pushed
  | var name value => exact stands.withArguments opens
  | arguments parameters values =>
      exact stands.withArguments (Scope.opened_arguments_ok_iff.mp opens).2
  | function definition =>
      obtain ⟨_, rfl⟩ := Scope.opened_function_ok_iff.mp opens
      exact stands.mapCurrent _

/-- Leaving a scope writes to the frame that is topmost by then, or takes frames away. -/
theorem released (stands : inner.StandsOn lower) (scope : Scope) (outer : Nat)
    (deep : lower.length < (scope.released outer inner).frameDepth) :
    (scope.released outer inner).StandsOn lower := by
  cases scope with
  | call span => exact stands
  | frame span =>
      by_cases balanced : inner.frameDepth = outer + 2
      · rw [Scope.released, if_pos balanced] at deep ⊢
        exact stands.popFrame deep
      · rw [Scope.released, if_neg balanced] at deep ⊢
        exact stands.dropFrames _ deep
  | var name value => exact stands.unbindVariable name
  | arguments parameters values => exact stands.unbindEach parameters.reverse
  | function definition => exact stands.unbindFunction definition

end StandsOn

end Context

/-!
## Operations and other work
-/

/-- Evaluations, also inside scopes. -/
inductive Work.Evaluates : Work → Prop where
  | expr (expr : Expr) : Evaluates (evaluate expr)
  | within (scope : Scope) {work : Work} : work.Evaluates → Evaluates (within scope work)

namespace Work

theorem Evaluates.call (armed : ArmedCall) : (call armed).Evaluates := by
  have body : (Work.within (.arguments armed.function.parameters armed.arguments)
      (.evaluate armed.function.body)).Evaluates := .within _ (.expr _)
  rw [Work.call]
  split
  next => exact .within _ body
  next => exact .within _ (.within _ body)

/-- Evaluations hand back the context they are given, scopes around them included. -/
theorem Evaluates.leaves_eq {work : Work} (evaluates : work.Evaluates) (context : Context) :
    work.leaves context = context := by
  induction evaluates generalizing context with
  | expr expr => exact expr.evaluate_tidy.restores context
  | within scope _ ih =>
      cases opens : scope.opened context with
      | error error => exact leaves_within_of_error opens
      | ok inner =>
          have left := Scope.leave_of_ok (α := Unit) opens (.ok ())
          rw [leaves_within_eq opens, ih, ← Scope.leave_context scope _ (Except.ok ()), left]

/-- In what is recorded of the work, the stack keeps more than so many frames. Of an evaluation
nothing is recorded. -/
def StaysAbove (depth : Nat) : Work → Context → Prop
  | evaluate _, _ => True
  | operate operation, context =>
    ∀ state, (operation.perform context).Holds state → depth < state.frameDepth
  | perform body, context =>
    ∀ record ∈ (body.perform context).records, ∀ state, record.Holds state →
      depth < state.frameDepth
  | within scope work, context =>
    depth < ((within scope work).leaves context).frameDepth ∧
      ∀ inner, scope.opened context = .ok inner → work.StaysAbove depth inner

theorem Evaluates.staysAbove {work : Work} (evaluates : work.Evaluates) {lower : List Frame}
    {context : Context} (stands : context.StandsOn lower) : work.StaysAbove lower.length context := by
  induction evaluates generalizing context with
  | expr expr => trivial
  | within scope evaluates ih =>
      constructor
      · rw [(evaluates.within scope).leaves_eq]
        exact stands.deep
      · intro inner opens
        exact ih (stands.opened opens)

theorem StaysAbove.body {depth : Nat} {scope : Scope} {body : Operations} {context : Context}
    (stays : (operate (.within scope body)).StaysAbove depth context) :
    (within scope (perform body)).StaysAbove depth context := by
  constructor
  · rw [← leaves_operate_within]
    exact stays _ .own
  · intro inner opens record member state holds
    obtain ⟨succeeded, arrived, _⟩ := Scope.enter_of_ok opens
    have recorded : record ∈ ((Operation.within scope body).perform context).inner := by
      simp only [Operation.perform, succeeded, arrived]
      exact member
    exact stays state (.inner recorded holds)

theorem StaysAbove.first {depth : Nat} {operation : Operation} {tolerated : Bool}
    {rest : Operations} {context : Context}
    (stays : (perform (.next operation tolerated rest)).StaysAbove depth context) :
    (operate operation).StaysAbove depth context := by
  apply stays
  obtain ⟨_, _, ends⟩ | ⟨_, ends⟩ := Operations.perform_next operation tolerated rest context
  · rw [ends]
    exact List.mem_singleton_self _
  · rw [ends]
    exact List.mem_cons_self

theorem StaysAbove.rest {depth : Nat} {operation : Operation} {tolerated : Bool}
    {rest : Operations} {context : Context}
    (stays : (perform (.next operation tolerated rest)).StaysAbove depth context)
    (goesOn : tolerated = true ∨ ∃ answer, (operation.perform context).result = .ok answer) :
    (perform rest).StaysAbove depth (operation.perform context).context := by
  have more : ((Operations.next operation tolerated rest).perform context).records =
      operation.perform context :: (rest.perform (operation.perform context).context).records := by
    rcases goesOn with rfl | ⟨answer, succeeded⟩
    · rw [Operations.perform]
      exact fun _ _ impossible => by cases impossible
    · simp only [Operations.perform, succeeded]
  intro record member
  apply stays
  rw [more]
  exact List.mem_cons_of_mem _ member

theorem StaysAbove.leaves_within {scope : Scope} {work : Work} {lower : List Frame}
    {context : Context} (stays : (within scope work).StaysAbove lower.length context)
    (stands : context.StandsOn lower)
    (inside : ∀ inner : Context, inner.StandsOn lower → work.StaysAbove lower.length inner →
      (work.leaves inner).StandsOn lower) :
    ((within scope work).leaves context).StandsOn lower := by
  obtain ⟨deep, stays⟩ := stays
  cases opens : scope.opened context with
  | error error =>
      rw [leaves_within_of_error opens]
      exact stands
  | ok inner =>
      rw [leaves_within_eq opens] at deep ⊢
      exact (inside inner (stands.opened opens) (stays inner opens)).released scope _ deep

end Work

section Runs

variable {lower : List Frame}

mutual

theorem Operation.perform_standsOn (operation : Operation) {context : Context}
    (stands : context.StandsOn lower)
    (stays : (Work.operate operation).StaysAbove lower.length context) :
    (operation.perform context).context.StandsOn lower := by
  have restored {α : Type} {action : Action α} (tidy : action.Tidy) :
      (action context).context.StandsOn lower := (tidy.restores context).symm ▸ stands
  cases operation with
  | pushFrame span => exact stands.pushFrame span
  | popFrame => exact stands.popFrame (stays _ .own)
  | bindVariable name value => exact stands.bindVariable name value
  | unbindVariable name => exact stands.unbindVariable name
  | lookupVariable name => exact restored (Context.lookupVariable_tidy name)
  | bindFunction function => exact stands.bindFunction function
  | unbindFunction function => exact stands.unbindFunction function
  | lookupFunction name arity => exact restored (Context.lookupFunction_tidy name arity)
  | evaluate expr => exact restored expr.evaluate_tidy
  | evaluateText source => exact restored (evaluateText_tidy source)
  | test condition => exact restored condition.evaluate_tidy
  | call function arguments span =>
      rw [Operation.perform]
      split
      next armed _ => exact restored armed.evaluate_tidy
      next => exact stands
  | within scope body =>
      change ((Work.operate (.within scope body)).leaves context).StandsOn lower
      rw [Work.leaves_operate_within]
      exact stays.body.leaves_within stands fun inner stands stays =>
        body.perform_standsOn stands stays

theorem Operations.perform_standsOn (body : Operations) {context : Context}
    (stands : context.StandsOn lower) (stays : (Work.perform body).StaysAbove lower.length context) :
    (body.perform context).context.StandsOn lower := by
  cases body with
  | done => exact stands
  | next operation tolerated rest =>
      have first := operation.perform_standsOn stands stays.first
      obtain ⟨error, _, ends⟩ | ⟨goesOn, ends⟩ :=
        Operations.perform_next operation tolerated rest context
      · rw [ends]
        exact first
      · rw [ends]
        exact rest.perform_standsOn first (stays.rest goesOn)

end

/-!
## Moments
-/

namespace Work

theorem StaysAbove.leaves {work : Work} {context : Context}
    (stays : work.StaysAbove lower.length context) (stands : context.StandsOn lower) :
    (work.leaves context).StandsOn lower := by
  induction work generalizing context with
  | evaluate expr =>
      rw [(Evaluates.expr expr).leaves_eq]
      exact stands
  | operate operation => exact operation.perform_standsOn stands stays
  | perform body => exact body.perform_standsOn stands stays
  | within scope work ih => exact stays.leaves_within stands fun inner stands stays => ih stays stands

theorem Meets.standsOn {work : Work} {context state : Context} (meets : work.Meets context state)
    (stays : work.StaysAbove lower.length context) (stands : context.StandsOn lower) :
    state.StandsOn lower := by
  cases meets with
  | start => exact stands
  | finish => exact stays.leaves stands
  | binding count fits binds => exact stands.withArguments (Context.withArguments_of_bindEach binds)
  | unwinding count undone fits binds =>
      exact (stands.withArguments (Context.withArguments_of_bindEach binds)).unbindEach _
  | unbinding undone enters =>
      have opens := Scope.opened_of_enter enters
      exact (StaysAbove.leaves (stays.2 _ opens) (stands.opened opens)).unbindEach _

theorem Asks.standsOn {outer inner : Work} {context start : Context}
    (asks : Asks outer context inner start) (stays : outer.StaysAbove lower.length context)
    (stands : context.StandsOn lower) :
    inner.StaysAbove lower.length start ∧ start.StandsOn lower := by
  cases asks with
  | inside enters =>
      have opens := Scope.opened_of_enter enters
      exact ⟨stays.2 _ opens, stands.opened opens⟩
  | body => exact ⟨stays.body, stands⟩
  | first => exact ⟨stays.first, stands⟩
  | @rest operation _ _ _ goesOn =>
      exact ⟨stays.rest goesOn, operation.perform_standsOn stands stays.first⟩
  | called | armed => exact ⟨(Evaluates.call _).staysAbove stands, stands⟩
  | letBody | usage => exact ⟨(Evaluates.within _ (.expr _)).staysAbove stands, stands⟩
  | part | expression | text | operand => exact ⟨trivial, stands⟩

theorem Passes.standsOn {work : Work} {context state : Context} {opened : Nat}
    (passes : work.Passes context opened state) (stays : work.StaysAbove lower.length context)
    (stands : context.StandsOn lower) : state.StandsOn lower := by
  induction passes with
  | itself met => exact met.standsOn stays stands
  | during asked _ ih =>
      obtain ⟨staysInside, standsInside⟩ := asked.standsOn stays stands
      exact ih staysInside standsInside

end Work

end Runs

/-!
## Runs
-/

/-- Behind each operation of the body, in bodies inside scopes as well, the stack has at least so many
frames. -/
def Operations.NeverBelow (depth : Nat) (body : Operations) (context : Context) : Prop :=
  ∀ record ∈ (body.perform context).records, ∀ state, record.Holds state → depth ≤ state.frameDepth

namespace Context

variable {context : Context} {depth : Nat} {body : Operations}

theorem lowest_of_neverBelow (deep : depth ≤ context.frameDepth)
    (never : body.NeverBelow depth context) {opened : Nat} {state : Context}
    (passes : (Work.perform body).Passes context opened state) :
    depth ≤ state.frameDepth ∧ state.lowest (depth - 1) = context.lowest (depth - 1) := by
  have some (state : Context) : 0 < state.frameDepth := Nat.succ_pos _
  have above (state : Context) : depth ≤ state.frameDepth ↔ depth - 1 < state.frameDepth := by
    have base := some state
    omega
  obtain ⟨length, stands⟩ := standsOn_lowest ((above context).mp deep)
  have stays : (Work.perform body).StaysAbove (context.lowest (depth - 1)).length context := by
    intro record member state holds
    rw [length]
    exact (above state).mp (never record member state holds)
  have arrives := passes.standsOn stays stands
  have same := arrives.lowest_eq
  have deeper := arrives.deep
  rw [length] at same deeper
  exact ⟨(above state).mpr deeper, same⟩

/-- Popping the one frame above those of another context leaves just these. -/
theorem frames_popFrame {outer : Context} (stands : context.StandsOn outer.frames)
    (top : context.frameDepth = outer.frameDepth + 1) :
    (popFrame context).result = .ok () ∧ (popFrame context).context.frames = outer.frames := by
  have some : 0 < outer.frameDepth := Nat.succ_pos _
  unfold popFrame
  split
  next base =>
    rw [frameDepth, base, List.length_nil] at top
    omega
  next first rest upper =>
    refine ⟨rfl, ?_⟩
    have whole : context.frames = first :: (rest ++ [context.base]) := by
      rw [frames, upper, List.cons_append]
    have suffix : outer.frames <:+ rest ++ [context.base] := by
      rwa [StandsOn, whole] at stands
    have length : outer.frames.length = (rest ++ [context.base]).length := by
      rw [frameDepth, upper, List.length_cons] at top
      rw [length_frames, List.length_append, List.length_singleton]
      omega
    exact (suffix.eq_of_length length).symm

end Context

/-- While a run of operations keeps the stack from becoming lower than some depth, the frames below
that depth are the same at every moment of the run, and so at its end. Work in a new frame leaves all
frames below it as they are, and popping the new frame leaves just these. -/
theorem lower_frames_stay (body : Operations) (context : Context) :
    (∀ depth, depth ≤ context.frameDepth → body.NeverBelow depth context →
      (body.perform context).context.lowest (depth - 1) = context.lowest (depth - 1) ∧
      ∀ opened state, (Work.perform body).Passes context opened state →
        depth ≤ state.frameDepth ∧ state.lowest (depth - 1) = context.lowest (depth - 1)) ∧
    ∀ span, (Context.pushFrame span context).result = .ok () →
      body.NeverBelow (context.frameDepth + 1) (Context.pushFrame span context).context →
      let worked := (body.perform (Context.pushFrame span context).context).context
      worked.lowest context.frameDepth = context.frames ∧
      (worked.frameDepth = context.frameDepth + 1 →
        (Context.popFrame worked).result = .ok () ∧
        (Context.popFrame worked).context.frames = context.frames) := by
  constructor
  · intro depth deep never
    have moment {opened : Nat} {state : Context}
        (passes : (Work.perform body).Passes context opened state) :=
      Context.lowest_of_neverBelow deep never passes
    exact ⟨(moment (.itself .finish)).2, fun opened state passes => moment passes⟩
  · intro span pushes never worked
    have arrives : (Context.pushFrame span context).context = context.pushed := by
      unfold Context.pushFrame at pushes ⊢
      split at pushes
      next => cases pushes
      next room => rw [if_neg room]; rfl
    rw [arrives] at never
    have stays : (Work.perform body).StaysAbove context.frames.length context.pushed := by
      intro record member state holds
      rw [Context.length_frames]
      exact never record member state holds
    have whole : context.pushed.StandsOn context.frames := List.suffix_refl _
    have stands : worked.StandsOn context.frames := by
      have ends := stays.leaves whole
      rwa [← arrives] at ends
    refine ⟨?_, Context.frames_popFrame stands⟩
    rw [← context.length_frames]
    exact stands.lowest_eq

/-- Inside a frame of its own, a second frame is pushed and left behind; then names are unbound and
bound in the caller's frame. -/
def Operations.unbalanced : Operations :=
  .next (.within (.frame Span.empty) (.next (.pushFrame Span.empty) false .done)) true
    (.next (.unbindVariable (.bare "a")) true
      (.next (.bindVariable (.bare "a") (.ofNumber 2)) true .done))

/-- A context of two frames, the lower one with a variable. -/
def Context.twoFrames : Context :=
  { base := { vars := Bindings.insert {} "a" (.ofNumber 1) }, upper := [{}] }

theorem Operations.neverBelow_of_flat {depth : Nat} {body : Operations} {context : Context}
    (flat : ∀ record ∈ (body.perform context).records, depth ≤ record.context.frameDepth ∧
      ∀ inner ∈ record.inner, depth ≤ inner.context.frameDepth ∧ inner.inner.isEmpty) :
    body.NeverBelow depth context := by
  intro record member state holds
  obtain ⟨own, inside⟩ := flat record member
  rcases Record.holds_iff.mp holds with rfl | ⟨inner, innerMember, innerHolds⟩
  · exact own
  obtain ⟨deep, nothing⟩ := inside inner innerMember
  rcases Record.holds_iff.mp innerHolds with rfl | ⟨further, furtherMember, _⟩
  · exact deep
  · rw [List.isEmpty_iff.mp nothing] at furtherMember
    cases furtherMember

theorem unbalanced_run_keeps_base :
    Operations.unbalanced.NeverBelow 2 Context.twoFrames ∧
      (Operations.unbalanced.perform Context.twoFrames).context.lowest 1 =
        [Context.twoFrames.base] ∧
      Operations.unbalanced.NeverBelow 3 Context.twoFrames.pushed ∧
      (Operations.unbalanced.perform Context.twoFrames.pushed).context.lowest 2 =
        Context.twoFrames.frames := by
  have never : Operations.unbalanced.NeverBelow 2 Context.twoFrames :=
    Operations.neverBelow_of_flat (by decide)
  have neverInside : Operations.unbalanced.NeverBelow 3 Context.twoFrames.pushed :=
    Operations.neverBelow_of_flat (by decide)
  obtain ⟨run, inFrame⟩ := lower_frames_stay Operations.unbalanced Context.twoFrames
  have kept := (run 2 (by decide) never).1
  have under := (inFrame Span.empty rfl neverInside).1
  exact ⟨never, kept, neverInside, under⟩

end FrameLang
