import FrameLang.Proofs.Moments

/-!
How the work inside a scope and the release of the scope share one result. The work is arbitrary: it
may fail, push and pop frames, or take away what the scope has acquired. Its error stands, and the
error of the release shows only behind work that succeeded. There is one exception: a frame whose
work leaves the frame stack at another height than it found it at loses the error of that work.
-/

set_option autoImplicit false

namespace FrameLang

/-!
## Entering, working and leaving
-/

namespace Scope

/-- Gives back what `enter` acquired. -/
def releasing : Scope → Action Unit
  | call _ => Action.modify fun context => { context with callDepth := context.callDepth - 1 }
  | frame _ => Context.popFrame
  | var name _ => do
    let _ ← Context.unbindVariable name
    return ()
  | arguments parameters _ => Context.unbindEach parameters.reverse
  | function definition => do
    let _ ← Context.unbindFunction definition
    return ()

/-- The work has left the frame stack as high as it found it. Only a scope with a frame of its own
looks at this. -/
def Balanced (found left : Context) : Scope → Prop
  | frame _ => left.frameDepth = found.frameDepth
  | _ => True

section Around

variable {α : Type} {scope : Scope} {context : Context}

theorem around_of_refused {error : Error} (refused : (scope.enter context).result = .error error)
    (work : Action α) :
    scope.around work context =
      { result := .error error
        context := (scope.enter context).context
        events := (scope.enter context).events } := by
  change ((scope.enter >>= _) context).after [] = _
  simp only [Action.bind_of_error refused, Outcome.after, List.nil_append]

/-- Once the scope is entered the work is done, and then the scope is left. -/
theorem around_of_entered (entered : (scope.enter context).result = .ok ()) (work : Action α) :
    scope.around work context =
      let worked := work (scope.enter context).context
      (scope.leave context.upper.length worked.result worked.context).after
        ((scope.enter context).events ++ worked.events) := by
  change ((scope.enter >>= _) context).after [] = _
  simp only [Action.bind_of_ok entered, Action.attempt_bind, Outcome.after, List.nil_append,
    List.append_assoc]

theorem around_context (entered : (scope.enter context).result = .ok ()) (work : Action α) :
    (scope.around work context).context =
      scope.released context.upper.length (work (scope.enter context).context).context := by
  simp only [around_of_entered entered, Outcome.after, leave_context]

end Around

/-!
## Leaving
-/

section Leave

variable {α β : Type} (result : Except Error α)

/-- The first failure stands. -/
theorem release_result (released : Except Error β) (context : Context) :
    (Action.release result released context).result = result <* released := by
  cases result <;> cases released <;> rfl

theorem seqLeft_map {γ : Type} (released : Except Error β) (change : β → γ) :
    result <* released.map change = result <* released := by
  cases result <;> cases released <;> rfl

theorem discard_result (action : Action β) (context : Context) :
    ((do let _ ← action; return ()) context : Outcome Unit).result =
      (action context).result.map fun _ => () := by
  cases ended : (action context).result with
  | ok value => simp only [Action.bind_of_ok ended, Outcome.after, Action.pure_apply, Except.map]
  | error error => simp only [Action.bind_of_error ended, Except.map]

variable {context : Context} {span : Span}

theorem enter_frame (entered : ((frame span).enter context).result = .ok ()) :
    context.frameDepth < context.limit ∧ ((frame span).enter context).context = context.pushed := by
  simp only [enter, Context.pushFrame] at entered ⊢
  split at entered
  next => cases entered
  next room => simp only [room, if_false, Context.pushed, Nat.lt_of_not_le room, true_and]

theorem leave_frame_unbalanced {left : Context} {outer : Nat}
    (unbalanced : left.frameDepth ≠ outer + 2) :
    ((frame span).leave outer result left).result =
      .error ⟨.unbalancedFrames left.frameDepth (outer + 2), span⟩ := by
  change ((if _ then _ else _ : Action α) left).result = _
  rw [if_neg unbalanced]
  cases result <;> rfl

/-- Behind balanced work, the result of the work and that of the release are joined. -/
theorem leave_result {scope : Scope} {left : Context}
    (entered : (scope.enter context).result = .ok ())
    (balanced : scope.Balanced (scope.enter context).context left) :
    (scope.leave context.upper.length result left).result =
      result <* (scope.releasing left).result := by
  cases scope with
  | call span =>
      change (Action.ofExcept result _).result = _
      simp only [Action.ofExcept_result]
      cases result <;> rfl
  | frame span =>
      have same : left.frameDepth = context.upper.length + 2 :=
        balanced.trans (congrArg Context.frameDepth (enter_frame entered).2)
      change ((if _ then _ else _ : Action α) left).result = _
      rw [if_pos same, Action.attempt_bind]
      exact release_result result _ _
  | var name value =>
      simp only [leave, Action.attempt_bind, Outcome.after, release_result, releasing,
        discard_result, seqLeft_map]
  | arguments parameters values =>
      simp only [leave, Action.attempt_bind, Outcome.after, release_result, releasing]
  | function definition =>
      simp only [leave, Action.attempt_bind, Outcome.after, release_result, releasing,
        discard_result, seqLeft_map]

end Leave

end Scope

/-!
## Bodies of operations
-/

/-- The operations of a body as work inside a scope. -/
def Operations.work (body : Operations) : Action Unit := fun context =>
  let performed := body.perform context
  { result := performed.result, context := performed.context, events := performed.events }

/-- A scope with a body of operations is the scope around that work. -/
theorem Operation.perform_within (scope : Scope) (body : Operations) (context : Context) :
    let record := (Operation.within scope body).perform context
    let outcome := scope.around body.work context
    record.result = outcome.result.map (fun _ => .unit) ∧ record.context = outcome.context ∧
      record.events = outcome.events := by
  cases entered : (scope.enter context).result with
  | error error =>
      simp only [Operation.perform, entered, Scope.around_of_refused entered, Except.map, and_self]
  | ok _ =>
      simp only [Operation.perform, entered, Scope.around_of_entered entered, Operations.work,
        Outcome.after, List.append_assoc, and_self]

/-!
## The result of a scope
-/

namespace Scope

theorem around_result_of_balanced {α : Type} {scope : Scope} {context : Context}
    (entered : (scope.enter context).result = .ok ()) (work : Action α) :
    let inner := (scope.enter context).context
    let worked := work inner
    scope.Balanced inner worked.context →
      (scope.around work context).result =
        worked.result <* (scope.releasing worked.context).result := by
  intro inner worked balanced
  simp only [around_of_entered entered work, Outcome.after]
  exact leave_result worked.result entered balanced

theorem around_frame_unbalanced {α : Type} {span : Span} {context : Context}
    (entered : ((frame span).enter context).result = .ok ()) (work : Action α) :
    let inner := ((frame span).enter context).context
    let worked := work inner
    worked.context.frameDepth ≠ inner.frameDepth →
      ((frame span).around work context).result =
        .error ⟨.unbalancedFrames worked.context.frameDepth inner.frameDepth, span⟩ := by
  intro inner worked unbalanced
  have height : inner.frameDepth = context.upper.length + 2 :=
    congrArg Context.frameDepth (enter_frame entered).2
  rw [height] at unbalanced ⊢
  simp only [around_of_entered entered work, Outcome.after]
  exact leave_frame_unbalanced worked.result unbalanced

/-- Once the scope is entered, a failure of the work is what the scope returns, and so is a failure
of the release behind work that succeeded. The exception is a frame behind which the stack is left
at another height than it was found at. There the error about the height stands also where the work
has failed. -/
theorem error_of_work_stands {α : Type} (scope : Scope) (work : Action α) (context : Context)
    (entered : (scope.enter context).result = .ok ()) :
    let inner := (scope.enter context).context
    let worked := work inner
    let result := (scope.around work context).result
    (scope.Balanced inner worked.context →
      (∀ error, worked.result = .error error → result = .error error) ∧
      ∀ value, worked.result = .ok value →
        ((scope.releasing worked.context).result = .ok () → result = .ok value) ∧
        ∀ error, (scope.releasing worked.context).result = .error error →
          result = .error error) ∧
    ∀ span, scope = .frame span → worked.context.frameDepth ≠ inner.frameDepth →
      result = .error ⟨.unbalancedFrames worked.context.frameDepth inner.frameDepth, span⟩ := by
  intro inner worked result
  constructor
  · intro balanced
    have joined : result = worked.result <* (scope.releasing worked.context).result :=
      around_result_of_balanced entered work balanced
    constructor
    · intro error failed
      rw [joined, failed]
      rfl
    · intro value succeeded
      rw [joined, succeeded]
      constructor
      · intro released
        rw [released]
        rfl
      · intro error released
        rw [released]
        rfl
  · intro span isFrame unbalanced
    subst isFrame
    exact around_frame_unbalanced entered work unbalanced

end Scope

/-- Takes back the variable of the scope around it, and then fails. -/
def Operations.unbindAndFail : Operations :=
  .next (.unbindVariable (.bare "a")) false (.next (.lookupVariable (.bare "x")) false .done)

theorem failure_outranks_failed_release :
    let scope := Scope.var (.bare "a") (.ofNumber 1)
    let inner := (scope.enter {}).context
    let failure : Error := ⟨.unknownVariable "x", Span.empty⟩
    (scope.enter {}).result = .ok () ∧
      (Operations.unbindAndFail.work inner).result = .error failure ∧
      (scope.releasing (Operations.unbindAndFail.work inner).context).result =
        .error ⟨.variableNotBound "a", Span.empty⟩ ∧
      (scope.around Operations.unbindAndFail.work {}).result = .error failure := by
  intro scope inner failure
  have entered : (scope.enter {}).result = .ok () := rfl
  have failed : (Operations.unbindAndFail.work inner).result = .error failure := rfl
  have stands := (scope.error_of_work_stands Operations.unbindAndFail.work {} entered).1 trivial
  exact ⟨entered, failed, rfl, stands.1 failure failed⟩

/-- Pushes a frame, and then fails. -/
def Operations.pushAndFail : Operations :=
  .next (.pushFrame Span.empty) false (.next (.lookupVariable (.bare "x")) false .done)

/-- The exception loses an error: work that fails and also leaves a frame behind is answered with the
frame alone. -/
theorem unbalanced_frames_hide_error :
    ¬ ∀ (scope : Scope) (body : Operations) (context : Context) (error : Error),
        (scope.enter context).result = .ok () →
        (body.perform (scope.enter context).context).result = .error error →
        ((Operation.within scope body).perform context).result = .error error := by
  intro stands
  have hidden := stands (.frame Span.empty) .pushAndFail {} ⟨.unknownVariable "x", Span.empty⟩
    rfl rfl
  cases hidden

/-!
## The height of the stack behind a frame
-/

namespace Scope

variable {span : Span}

/-- Frames are cut off down to the height outside. None is put back. -/
theorem frameDepth_released_frame (outer : Nat) (left : Context) :
    ((frame span).released outer left).frameDepth = min (outer + 1) left.frameDepth := by
  simp only [released]
  split
  next balanced =>
    unfold Context.popFrame
    split
    next base =>
      simp only [Context.frameDepth, base, List.length_nil] at balanced
      omega
    next top lower upper =>
      simp only [Context.frameDepth, upper, List.length_cons] at balanced ⊢
      omega
  next =>
    simp only [dropFramesAbove, Context.frameDepth, List.length_drop]
    omega

/-- A frame that is refused changes nothing. Otherwise the stack is afterwards as high as before,
unless the work has popped frames of the caller: these are not replaced. Any work that leaves the
stack at another height than it found it at is answered with a broken contract. -/
theorem frame_depth_behind_work {α : Type} (span : Span) (work : Action α) (context : Context) :
    let outcome := (frame span).around work context
    (context.limit ≤ context.frameDepth → outcome.context = context) ∧
    (context.frameDepth < context.limit →
      let worked := work context.pushed
      outcome.context.frameDepth = min context.frameDepth worked.context.frameDepth ∧
      (outcome.context.frameDepth = context.frameDepth ↔
        context.frameDepth ≤ worked.context.frameDepth) ∧
      (worked.context.frameDepth ≠ context.pushed.frameDepth →
        ∃ error, outcome.result = .error error ∧ error.kind = .internalInvariant ∧
          error.span = span)) := by
  intro outcome
  constructor
  · intro full
    have refused : (frame span).opened context = .error (context.depthExceeded span) :=
      opened_frame_error_iff.mpr ⟨full, rfl⟩
    simp only [outcome, around_of_error refused]
  · intro room worked
    have opens : (frame span).opened context = .ok context.pushed :=
      opened_frame_ok_iff.mpr ⟨Nat.not_le_of_lt room, rfl⟩
    obtain ⟨entered, arrived, _⟩ := enter_of_ok opens
    have depth : outcome.context.frameDepth = min context.frameDepth worked.context.frameDepth := by
      simp only [outcome, around_context entered, arrived, frameDepth_released_frame]
      rfl
    refine ⟨depth, ?_, ?_⟩
    · rw [depth]
      omega
    · intro unbalanced
      have broken := around_frame_unbalanced entered work
      rw [arrived] at broken
      exact ⟨_, broken unbalanced, rfl, rfl⟩

end Scope

/-- Pushes two frames and leaves them behind. -/
def Operations.pushTwice : Operations :=
  .next (.pushFrame Span.empty) false (.next (.pushFrame Span.empty) false .done)

theorem frames_left_behind_are_cut :
    let outcome := (Scope.frame Span.empty).around Operations.pushTwice.work {}
    (Operations.pushTwice.work ({} : Context).pushed).context.frameDepth = 4 ∧
      outcome.context.frameDepth = 1 ∧
      ∃ error, outcome.result = .error error ∧ error.kind = .internalInvariant ∧
        error.span = Span.empty := by
  have room : ({} : Context).frameDepth < ({} : Context).limit := by decide
  obtain ⟨depth, _, broken⟩ :=
    (Scope.frame_depth_behind_work Span.empty Operations.pushTwice.work {}).2 room
  exact ⟨rfl, depth, broken (by decide)⟩

/-- Pops the frame of the scope around it and one more. -/
def Operations.popTwice : Operations := .next .popFrame false (.next .popFrame false .done)

/-- What the work pops beyond the frame of its scope is gone. -/
theorem popped_frames_stay_lost :
    ¬ ∀ (span : Span) (body : Operations) (context : Context),
        ((Operation.within (.frame span) body).perform context).context.frameDepth =
          context.frameDepth := by
  intro restores
  have lost := restores Span.empty .popTwice { upper := [{}] }
  exact absurd lost (by decide)

end FrameLang
