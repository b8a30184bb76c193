import FrameLang.Proofs.Outcomes

/-!
What the limit on the call depth does to a run. Two runs that differ in the limit alone take the same
steps up to the first call for which the lower limit leaves no room; there the one run ends and the
other goes on. A run that ends before is the same under every higher limit.

Frames are counted against the same limit as calls. In a context that has at most one frame more than
calls in progress, and in no other, the calls always reach the limit first.
-/

set_option autoImplicit false

namespace FrameLang

namespace Context

def withLimit (context : Context) (limit : UInt64) : Context :=
  { context with config := { maxCallDepth := limit } }

/-- At most one frame more than calls in progress: the base, and one for each call. -/
def Shallow (context : Context) : Prop := context.frameDepth ≤ context.callDepth + 1

variable {context inner : Context} {limit : UInt64}

theorem withVariable_withLimit (context : Context) (limit : UInt64) (name : String)
    (value : Value) :
    (context.withLimit limit).withVariable name value =
      (context.withVariable name value).withLimit limit := by
  obtain ⟨base, upper, callDepth, config⟩ := context
  cases upper <;> rfl

theorem withFunction_withLimit (context : Context) (limit : UInt64) (function : Function) :
    (context.withLimit limit).withFunction function =
      (context.withFunction function).withLimit limit := by
  obtain ⟨base, upper, callDepth, config⟩ := context
  cases upper <;> rfl

theorem withArguments_withLimit (context : Context) (limit : UInt64)
    (pairs : List (Name × Value)) :
    (context.withLimit limit).withArguments pairs =
      (context.withArguments pairs).map (·.withLimit limit) := by
  induction pairs generalizing context with
  | nil => rfl
  | cons pair rest ih =>
      obtain ⟨name, value⟩ := pair
      have current : (context.withLimit limit).current = context.current := rfl
      rw [withArguments, withArguments, current]
      cases context.current.vars.find? name.text with
      | some old => rfl
      | none =>
          rw [withVariable_withLimit]
          exact ih _

theorem kind_of_withArguments {pairs : List (Name × Value)} {error : Error}
    (refused : context.withArguments pairs = .error error) : error.kind = .shadowing := by
  induction pairs generalizing context with
  | nil => cases refused
  | cons pair rest ih =>
      rw [withArguments] at refused
      split at refused
      · cases refused
        rfl
      · exact ih refused

/-- The limit and the two counters that are compared with it. -/
structure SameCounters (inner context : Context) : Prop where
  limit : inner.limit = context.limit
  calls : inner.callDepth = context.callDepth
  frames : inner.frameDepth = context.frameDepth

theorem sameCounters_mapCurrent (context : Context) (change : Frame → Frame) :
    SameCounters (context.mapCurrent change) context :=
  ⟨limit_mapCurrent .., callDepth_mapCurrent .., frameDepth_mapCurrent ..⟩

theorem SameCounters.trans {outer : Context} (first : SameCounters inner context)
    (second : SameCounters context outer) : SameCounters inner outer :=
  ⟨first.limit.trans second.limit, first.calls.trans second.calls,
    first.frames.trans second.frames⟩

theorem SameCounters.shallow (same : SameCounters inner context) (shallow : context.Shallow) :
    inner.Shallow := by
  rw [Shallow, same.frames, same.calls]
  exact shallow

theorem sameCounters_withArguments {pairs : List (Name × Value)}
    (arrives : context.withArguments pairs = .ok inner) : SameCounters inner context := by
  induction pairs generalizing context with
  | nil =>
      cases arrives
      exact ⟨rfl, rfl, rfl⟩
  | cons pair rest ih =>
      rw [withArguments] at arrives
      split at arrives
      · cases arrives
      · exact (ih arrives).trans (sameCounters_mapCurrent context _)

end Context

/-!
## Calls in a record of events
-/

def CallFree (events : List Event) : Prop :=
  ∀ function depth span, Event.callingFunction function depth span ∉ events

/-- The span of a call that is attempted while at least `limit - 1` calls are in progress. -/
def Event.excess? (limit : Nat) : Event → Option Span
  | callingFunction _ depth span => if limit - 1 ≤ depth then some span else none
  | _ => none

/-- The span of the first such call. -/
def firstExcess? (limit : Nat) (events : List Event) : Option Span :=
  events.findSome? (Event.excess? limit)

/-- Every call of an ordinary function that the limit on calls lets pass gets its frame right away,
so the limit on frames does not refuse it. -/
def FramesGranted (limit : Nat) (events : List Event) : Prop :=
  ∀ before function depth span after,
    events = before ++ .callingFunction function depth span :: after →
    function.isLambda = false → depth + 1 < limit →
      ∃ frames rest, after = .pushedFrame frames :: rest

section Events

variable {limit : Nat} {earlier later events : List Event}

theorem CallFree.nil : CallFree [] := by
  simp [CallFree]

theorem CallFree.append (first : CallFree earlier) (second : CallFree later) :
    CallFree (earlier ++ later) := by
  intro function depth span member
  rcases List.mem_append.mp member with inEarlier | inLater
  · exact first function depth span inEarlier
  · exact second function depth span inLater

theorem CallFree.firstExcess?_eq (callFree : CallFree events) :
    firstExcess? limit events = none := by
  refine List.findSome?_eq_none_iff.mpr fun event member => ?_
  cases event with
  | callingFunction function depth span => exact absurd member (callFree function depth span)
  | _ => rfl

theorem firstExcess?_append :
    firstExcess? limit (earlier ++ later) =
      (firstExcess? limit earlier).or (firstExcess? limit later) :=
  List.findSome?_append

theorem exists_excess_iff :
    (∃ span, firstExcess? limit events = some span) ↔
      ∃ function depth span,
        Event.callingFunction function depth span ∈ events ∧ limit - 1 ≤ depth := by
  constructor
  · rintro ⟨span, found⟩
    obtain ⟨event, member, excess⟩ := List.exists_of_findSome?_eq_some found
    cases event with
    | callingFunction function depth place =>
        rw [Event.excess?] at excess
        split at excess
        next beyond => exact ⟨function, depth, place, member, beyond⟩
        next => cases excess
    | _ => cases excess
  · rintro ⟨function, depth, span, member, beyond⟩
    cases found : firstExcess? limit events with
    | some first => exact ⟨first, rfl⟩
    | none =>
        have skipped := List.findSome?_eq_none_iff.mp found _ member
        rw [Event.excess?, if_pos beyond] at skipped
        cases skipped

theorem CallFree.framesGranted (callFree : CallFree events) : FramesGranted limit events := by
  rintro before function depth span after rfl _ _
  exact absurd (List.mem_append_right before List.mem_cons_self) (callFree function depth span)

theorem FramesGranted.append (first : FramesGranted limit earlier)
    (second : FramesGranted limit later) : FramesGranted limit (earlier ++ later) := by
  intro before function depth span after split ordinary room
  rcases List.append_eq_append_iff.mp split with ⟨gap, _, inLater⟩ | ⟨gap, inEarlier, rest⟩
  · exact second gap function depth span after inLater ordinary room
  cases gap with
  | nil => exact second [] function depth span after rest.symm ordinary room
  | cons event gap =>
      rw [List.cons_append, List.cons.injEq] at rest
      obtain ⟨rfl, rfl⟩ := rest
      obtain ⟨frames, more, rfl⟩ := first before function depth span gap inEarlier ordinary room
      exact ⟨frames, more ++ later, rfl⟩

theorem FramesGranted.call {function : Function} {depth : Nat} {span : Span}
    (granted : FramesGranted limit later)
    (next : function.isLambda = false → depth + 1 < limit →
      ∃ frames rest, later = .pushedFrame frames :: rest) :
    FramesGranted limit (.callingFunction function depth span :: later) := by
  intro before other otherDepth otherSpan after split ordinary room
  cases before with
  | nil =>
      cases split
      exact next ordinary room
  | cons event before =>
      rw [List.cons_append, List.cons.injEq] at split
      exact granted before other otherDepth otherSpan after split.2 ordinary room

end Events

theorem Context.boundEvents_callFree (context : Context) (pairs : List (Name × Value)) :
    CallFree (context.boundEvents pairs) := by
  induction pairs generalizing context with
  | nil => exact .nil
  | cons pair rest ih =>
      rw [boundEvents]
      split
      · exact .nil
      · have bound : CallFree [.boundVariable pair.1.text pair.2] := by simp [CallFree]
        exact bound.append (ih _)

namespace Scope

theorem opening_callFree (scope : Scope) (context : Context) : CallFree (scope.opening context) := by
  cases scope with
  | call span => exact .nil
  | frame span =>
      rw [opening]
      split <;> simp [CallFree]
  | var name value => exact context.boundEvents_callFree _
  | arguments parameters values =>
      rw [opening]
      split
      · exact context.boundEvents_callFree _
      · exact .nil
  | function definition =>
      rw [opening]
      split <;> simp [CallFree]

theorem closing_callFree (scope : Scope) (context : Context) : CallFree (scope.closing context) := by
  cases scope <;> simp [CallFree, closing]

end Scope

/-!
## Work behind an entry
-/

/-- The action does the work in the context that the entry opens, or fails as the entry does, and
apart from the work it attempts no call. -/
structure Action.Enters {α : Type} (action : Action α) (opened : Context → Except Error Context)
    (work : Action α) : Prop where
  result : ∀ context,
    (action context).result = opened context >>= fun inner => (work inner).result
  events : ∀ context, ∃ before after, CallFree before ∧ CallFree after ∧
    (action context).events =
      before ++
        ((match opened context with
          | .ok inner => (work inner).events
          | .error _ => []) ++ after)

namespace Action.Enters

variable {α : Type} {action middle work : Action α}

theorem refl (work : Action α) : work.Enters .ok work :=
  ⟨fun _ => rfl, fun _ => ⟨[], [], .nil, .nil, by simp⟩⟩

theorem trans {first second : Context → Except Error Context} (outside : action.Enters first middle)
    (inside : middle.Enters second work) :
    action.Enters (fun context => first context >>= second) work := by
  constructor
  · intro context
    rw [outside.result]
    simp only [inside.result, bind_assoc]
  · intro context
    obtain ⟨before, after, beforeFree, afterFree, record⟩ := outside.events context
    cases opens : first context with
    | error error =>
        rw [opens] at record
        exact ⟨before, after, beforeFree, afterFree, record⟩
    | ok inner =>
        obtain ⟨opening, closing, openingFree, closingFree, within⟩ := inside.events inner
        simp only [opens, within] at record
        refine ⟨before ++ opening, closing ++ after, beforeFree.append openingFree,
          closingFree.append afterFree, ?_⟩
        rw [record]
        simp only [List.append_assoc]
        rfl

end Action.Enters

theorem Scope.around_enters {α : Type} (scope : Scope) {work : Action α} (workTidy : work.Tidy) :
    (scope.around work).Enters (fun context => scope.opened context) work := by
  refine ⟨around_result workTidy scope, fun context => ?_⟩
  rw [around_events workTidy]
  cases scope.opened context with
  | error error => exact ⟨_, [], scope.opening_callFree context, .nil, by simp⟩
  | ok inner =>
      exact ⟨_, _, scope.opening_callFree context, scope.closing_callFree context, rfl⟩

namespace ArmedCall

theorem inFrame_enters (call : ArmedCall) {work : Action Value} (workTidy : work.Tidy) :
    (call.inFrame work).Enters (fun context => call.framed context) work := by
  by_cases isLambda : call.function.isLambda
  · simp only [inFrame, framed, isLambda, ↓reduceIte]
    exact .refl work
  · simp only [inFrame, framed, isLambda, Bool.false_eq_true, ↓reduceIte]
    exact Scope.around_enters _ workTidy

theorem around_enters (call : ArmedCall) {work : Action Value} (workTidy : work.Tidy) :
    (call.around work).Enters (fun context => call.opened context) work := by
  have bodyTidy := Scope.around_tidy (.arguments call.function.parameters call.arguments) workTidy
  have counted := Scope.around_enters (.call call.span) (call.inFrame_tidy bodyTidy)
  exact counted.trans ((call.inFrame_enters bodyTidy).trans (Scope.around_enters _ workTidy))

/-- An ordinary function is given its frame before anything else is reported. -/
theorem around_events_of_room {call : ArmedCall} {work : Action Value} {context : Context}
    (workTidy : work.Tidy) (ordinary : call.function.isLambda = false)
    (roomForCall : ¬ context.limit ≤ context.callDepth + 1)
    (roomForFrame : ¬ context.limit ≤ context.frameDepth) :
    ∃ frames rest, (call.around work context).events = .pushedFrame frames :: rest := by
  have bodyTidy := Scope.around_tidy (.arguments call.function.parameters call.arguments) workTidy
  have counts : (Scope.call call.span).opened context = .ok context.counted :=
    Scope.opened_call_ok_iff.mpr ⟨roomForCall, rfl⟩
  have pushes : (Scope.frame call.span).opening context.counted =
      [.pushedFrame (context.frameDepth + 1)] := if_neg roomForFrame
  have inFrame := Scope.around_events bodyTidy (.frame call.span) context.counted
  rw [pushes] at inFrame
  rw [around, Scope.around_events (call.inFrame_tidy bodyTidy), counts]
  simp only [ArmedCall.inFrame, ordinary, Bool.false_eq_true, ↓reduceIte, inFrame]
  exact ⟨_, _, rfl⟩

end ArmedCall

/-!
## Two limits
-/

def Outcome.AtLimit {α : Type} (outcome : Outcome α) : Prop :=
  ∃ error, outcome.result = .error error ∧ error.kind = .recursionLimit

/-- How a run under a limit ends, compared with the run under a higher one: in the same way, or at
the first call for which there is no room. Which of the two it is shows in the events of the longer
run, if the calls reach the limit before the frames. -/
inductive Outcome.Ends {α : Type} (limit : Nat) (shallow : Prop) (low high : Outcome α) : Prop where
  | alike (same : low.result = high.result)
      (within : shallow → firstExcess? limit high.events = none ∧ ¬ low.AtLimit)
  | refused (span : Span) (cut : low.result = .error ⟨.depthExceeded limit, span⟩)
      (first : shallow → firstExcess? limit high.events = some span)

/-- What happened before does not matter if no call was in excess then. -/
theorem Outcome.Ends.after {α : Type} {limit : Nat} {shallow : Prop} {low high : Outcome α}
    (ends : Outcome.Ends limit shallow low high) (earlier : List Event) {highEarlier : List Event}
    (none : shallow → firstExcess? limit highEarlier = none) :
    Outcome.Ends limit shallow (low.after earlier) (high.after highEarlier) := by
  have later (deep : shallow) : firstExcess? limit (high.after highEarlier).events =
      firstExcess? limit high.events := by
    exact firstExcess?_append.trans (by rw [none deep, Option.none_or])
  cases ends with
  | alike same within =>
      exact .alike same fun deep => ⟨(later deep).trans (within deep).1, (within deep).2⟩
  | refused span cut first => exact .refused span cut fun deep => (later deep).trans (first deep)

/-- The action under the limit of the context against the same action under a higher one. -/
structure Action.Shortens {α : Type} (action : Action α) (context : Context) (higher : UInt64) :
    Prop where
  ends : Outcome.Ends context.limit context.Shallow (action context)
    (action (context.withLimit higher))
  granted : context.Shallow → FramesGranted context.limit (action context).events

namespace Action

variable {α β : Type} {context : Context} {higher : UInt64}

theorem bind_events_prefix (first : Action α) (next : α → Action β) (context : Context) :
    ∃ later, ((first >>= next) context).events = (first context).events ++ later := by
  cases ended : (first context).result with
  | error error => exact ⟨[], by rw [bind_of_error ended, List.append_nil]⟩
  | ok value => exact ⟨_, by rw [bind_of_ok ended]; rfl⟩

namespace Shortens

/-- An action that attempts no call and does not look at the limit. -/
theorem of_silent {action : Action α} (silent : ∀ context, (action context).events = [])
    (same : (action (context.withLimit higher)).result = (action context).result)
    (other : ¬ (action context).AtLimit) : action.Shortens context higher := by
  constructor
  · exact .alike same.symm fun _ => ⟨by rw [silent]; rfl, other⟩
  · intro _
    rw [silent]
    exact CallFree.nil.framesGranted

theorem done (value : α) : (pure value : Action α).Shortens context higher :=
  of_silent (fun _ => rfl) rfl (by simp [Outcome.AtLimit])

theorem bind {first : Action α} {next : α → Action β} (tidy : first.Tidy)
    (firstShortens : first.Shortens context higher)
    (nextShortens : ∀ value, (first context).result = .ok value →
      (next value).Shortens context higher) : (first >>= next).Shortens context higher := by
  obtain ⟨ends, granted⟩ := firstShortens
  cases ends with
  | refused span cut excess =>
      constructor
      · refine .refused span (by rw [bind_of_error cut]) fun shallow => ?_
        obtain ⟨later, record⟩ := first.bind_events_prefix next (context.withLimit higher)
        rw [record, firstExcess?_append, excess shallow, Option.some_or]
      · rw [bind_of_error cut]
        exact granted
  | alike same within =>
      cases ended : (first context).result with
      | error error =>
          have alsoEnded := same.symm.trans ended
          refine ⟨.alike ?_ fun shallow => ?_, ?_⟩
          · rw [bind_of_error ended, bind_of_error alsoEnded]
          · obtain ⟨none, other⟩ := within shallow
            rw [bind_of_error ended, bind_of_error alsoEnded]
            refine ⟨none, fun ⟨atLimit, failed, kind⟩ => ?_⟩
            cases failed
            exact other ⟨error, ended, kind⟩
          · rw [bind_of_error ended]
            exact granted
      | ok value =>
          have alsoEnded := same.symm.trans ended
          obtain ⟨nextEnds, nextGranted⟩ := nextShortens value ended
          refine ⟨?_, fun shallow => ?_⟩
          · rw [bind_of_ok ended, bind_of_ok alsoEnded, tidy.restores, tidy.restores]
            exact nextEnds.after _ fun shallow => (within shallow).1
          · rw [bind_of_ok ended, tidy.restores]
            exact (granted shallow).append (nextGranted shallow)

end Shortens

/-- An entry that does not look at the limit hands on what becomes of the work. -/
theorem Enters.shortens {action work : Action α} {opened : Context → Except Error Context}
    (enters : action.Enters opened work)
    (alike : opened (context.withLimit higher) = (opened context).map (·.withLimit higher))
    (other : ∀ error, opened context = .error error → error.kind ≠ .recursionLimit)
    (kept : ∀ inner, opened context = .ok inner →
      inner.limit = context.limit ∧ (context.Shallow → inner.Shallow))
    (inside : ∀ inner, opened context = .ok inner → work.Shortens inner higher) :
    action.Shortens context higher := by
  have result := enters.result context
  have highResult := enters.result (context.withLimit higher)
  obtain ⟨before, after, beforeFree, afterFree, record⟩ := enters.events context
  obtain ⟨highBefore, highAfter, highBeforeFree, highAfterFree, highRecord⟩ :=
    enters.events (context.withLimit higher)
  rw [alike] at highResult highRecord
  cases opens : opened context with
  | error error =>
      rw [opens] at result record highResult highRecord
      constructor
      · refine .alike (result.trans highResult.symm) fun _ => ⟨?_, ?_⟩
        · rw [highRecord]
          exact (highBeforeFree.append (CallFree.nil.append highAfterFree)).firstExcess?_eq
        · rintro ⟨atLimit, failed, kind⟩
          cases result.symm.trans failed
          exact other _ opens kind
      · intro _
        rw [record]
        exact (beforeFree.append (CallFree.nil.append afterFree)).framesGranted
  | ok inner =>
      rw [opens] at result record highResult highRecord
      obtain ⟨sameLimit, shallower⟩ := kept inner opens
      obtain ⟨ends, granted⟩ := inside inner opens
      have excess : firstExcess? context.limit (action (context.withLimit higher)).events =
          firstExcess? inner.limit (work (inner.withLimit higher)).events := by
        rw [highRecord, firstExcess?_append, highBeforeFree.firstExcess?_eq, Option.none_or,
          firstExcess?_append, highAfterFree.firstExcess?_eq, Option.or_none, sameLimit]
        rfl
      constructor
      · cases ends with
        | alike same within =>
            refine .alike (result.trans (same.trans highResult.symm)) fun shallow => ?_
            obtain ⟨none, notCut⟩ := within (shallower shallow)
            refine ⟨excess.trans none, fun ⟨atLimit, failed, kind⟩ => ?_⟩
            exact notCut ⟨atLimit, result.symm.trans failed, kind⟩
        | refused span cut first =>
            refine .refused span ?_ fun shallow => excess.trans (first (shallower shallow))
            rw [← sameLimit]
            exact result.trans cut
      · intro shallow
        rw [record]
        have inWork := granted (shallower shallow)
        rw [sameLimit] at inWork
        exact beforeFree.framesGranted.append (inWork.append afterFree.framesGranted)

end Action

/-!
## Scopes and calls under two limits
-/

namespace Scope

/-- A scope whose entry is not compared with the limit. -/
def Unlimited : Scope → Prop
  | call _ | frame _ => False
  | _ => True

variable {scope : Scope} {context inner : Context}

theorem opened_withLimit (unlimited : scope.Unlimited) (context : Context) (limit : UInt64) :
    scope.opened (context.withLimit limit) = (scope.opened context).map (·.withLimit limit) := by
  cases scope with
  | call | frame => exact unlimited.elim
  | var name value => exact context.withArguments_withLimit limit _
  | arguments parameters values =>
      rw [opened, opened]
      split
      · exact context.withArguments_withLimit limit _
      · rfl
  | function definition =>
      have current : (context.withLimit limit).current = context.current := rfl
      rw [opened, opened, current]
      cases context.current.functions.find? definition.signature with
      | some old => rfl
      | none => exact congrArg Except.ok (context.withFunction_withLimit limit definition)

theorem sameCounters_of_opened (opens : scope.opened context = .ok inner)
    (unlimited : scope.Unlimited) : inner.SameCounters context := by
  cases scope with
  | call | frame => exact unlimited.elim
  | var name value => exact Context.sameCounters_withArguments opens
  | arguments parameters values =>
      exact Context.sameCounters_withArguments (opened_arguments_ok_iff.mp opens).2
  | function definition =>
      obtain ⟨_, rfl⟩ := opened_function_ok_iff.mp opens
      exact context.sameCounters_mapCurrent _

theorem kind_of_opened (unlimited : scope.Unlimited) {error : Error}
    (refused : scope.opened context = .error error) : error.kind ≠ .recursionLimit := by
  cases scope with
  | call | frame => exact unlimited.elim
  | var name value => simp [Context.kind_of_withArguments refused]
  | arguments parameters values =>
      rw [opened] at refused
      split at refused
      · simp [Context.kind_of_withArguments refused]
      · cases refused
        simp [Error.kind, Cause.kind]
  | function definition =>
      obtain ⟨_, rfl⟩ := opened_function_error_iff.mp refused
      simp [Error.kind, Cause.kind]

theorem limit_of_opened (opens : scope.opened context = .ok inner) : inner.limit = context.limit := by
  cases scope with
  | call span =>
      obtain ⟨_, rfl⟩ := opened_call_ok_iff.mp opens
      rfl
  | frame span =>
      obtain ⟨_, rfl⟩ := opened_frame_ok_iff.mp opens
      rfl
  | var | arguments | function => exact (sameCounters_of_opened opens trivial).limit

theorem around_shortens {α : Type} {work : Action α} {higher : UInt64} (tidy : work.Tidy)
    (unlimited : scope.Unlimited)
    (inside : ∀ inner, scope.opened context = .ok inner → work.Shortens inner higher) :
    (scope.around work).Shortens context higher := by
  refine (around_enters scope tidy).shortens (opened_withLimit unlimited context higher)
    (fun _ refused => kind_of_opened unlimited refused) (fun inner opens => ?_) inside
  have same := sameCounters_of_opened opens unlimited
  exact ⟨same.limit, same.shallow⟩

end Scope

namespace ArmedCall

variable {call : ArmedCall} {context inner : Context}

/-- Where a call binds its arguments once no limit has refused it. -/
def frameOf (context : Context) (call : ArmedCall) : Context :=
  if call.function.isLambda then context.counted else context.counted.pushed

theorem opened_of_deep (deep : context.limit ≤ context.callDepth + 1) :
    call.opened context = .error (context.depthExceeded call.span) := by
  rw [opened, Scope.opened_call_error_iff.mpr ⟨deep, rfl⟩]
  rfl

theorem opened_of_full (room : ¬ context.limit ≤ context.callDepth + 1)
    (ordinary : call.function.isLambda = false) (full : context.limit ≤ context.frameDepth) :
    call.opened context = .error (context.depthExceeded call.span) := by
  have refused : (Scope.frame call.span).opened context.counted =
      .error (context.depthExceeded call.span) := Scope.opened_frame_error_iff.mpr ⟨full, rfl⟩
  rw [opened, Scope.opened_call_ok_iff.mpr ⟨room, rfl⟩]
  change (call.framed context.counted >>= _) = _
  rw [framed, ordinary, if_neg Bool.false_ne_true, refused]
  rfl

theorem opened_of_room (roomForCall : ¬ context.limit ≤ context.callDepth + 1)
    (roomForFrame : call.function.isLambda = false → ¬ context.limit ≤ context.frameDepth) :
    call.opened context =
      (Scope.arguments call.function.parameters call.arguments).opened (call.frameOf context) := by
  rw [opened, Scope.opened_call_ok_iff.mpr ⟨roomForCall, rfl⟩]
  change (call.framed context.counted >>= _) = _
  rw [framed, frameOf]
  cases isLambda : call.function.isLambda with
  | true => rfl
  | false =>
      have pushes : (Scope.frame call.span).opened context.counted = .ok context.counted.pushed :=
        Scope.opened_frame_ok_iff.mpr ⟨roomForFrame isLambda, rfl⟩
      rw [if_neg Bool.false_ne_true, if_neg Bool.false_ne_true, pushes]
      rfl

theorem limit_of_opened (opens : call.opened context = .ok inner) :
    inner.limit = context.limit := by
  obtain ⟨counted, framed, counts, frames, binds⟩ := scopes_of_opened opens
  have sameFramed : framed.limit = counted.limit := by
    rw [ArmedCall.framed] at frames
    split at frames
    · cases frames
      rfl
    · exact Scope.limit_of_opened frames
  rw [Scope.limit_of_opened binds, sameFramed, Scope.limit_of_opened counts]

theorem frameOf_withLimit (call : ArmedCall) (context : Context) (limit : UInt64) :
    call.frameOf (context.withLimit limit) = (call.frameOf context).withLimit limit := by
  rw [frameOf, frameOf]
  split <;> rfl

theorem frameOf_kept (call : ArmedCall) (context : Context) :
    (call.frameOf context).limit = context.limit ∧
      (context.Shallow → (call.frameOf context).Shallow) := by
  rw [frameOf]
  split
  · exact ⟨rfl, fun shallow => Nat.le_succ_of_le shallow⟩
  · exact ⟨rfl, fun shallow => Nat.succ_le_succ shallow⟩

theorem firstExcess?_attempt {limit depth : Nat} (function : Function) (span : Span) :
    firstExcess? limit [.callingFunction function depth span] =
      if limit - 1 ≤ depth then some span else none := by
  by_cases beyond : limit - 1 ≤ depth <;> simp [firstExcess?, Event.excess?, beyond]

/-- A call that is refused ends the run at the limit. If no limit on frames was in the way, it is
the first call in excess. -/
theorem evaluateWith_shortens_of_refused {evaluate : Expr → Action Value} {higher : UInt64}
    (tidy : ∀ expr, (evaluate expr).Tidy)
    (refused : call.opened context = .error (context.depthExceeded call.span))
    (deep : context.Shallow → context.limit ≤ context.callDepth + 1) :
    (call.evaluateWith evaluate).Shortens context higher := by
  have enters := call.around_enters (tidy call.function.body)
  constructor
  · refine .refused call.span ?_ fun shallow => ?_
    · rw [evaluateWith_apply]
      exact (enters.result context).trans (by rw [refused]; rfl)
    · have beyond : context.limit - 1 ≤ (context.withLimit higher).callDepth :=
        Nat.sub_le_of_le_add (deep shallow)
      rw [evaluateWith_apply]
      exact firstExcess?_append.trans (by rw [firstExcess?_attempt, if_pos beyond, Option.some_or])
  · intro shallow
    obtain ⟨before, after, beforeFree, afterFree, record⟩ := enters.events context
    rw [refused] at record
    have inside : FramesGranted context.limit (before ++ ([] ++ after)) :=
      (beforeFree.append (CallFree.nil.append afterFree)).framesGranted
    rw [evaluateWith_apply]
    exact FramesGranted.call (record ▸ inside) fun _ room =>
      absurd room (Nat.not_lt.mpr (deep shallow))

theorem evaluateWith_shortens {evaluate : Expr → Action Value} {higher : UInt64}
    (tidy : ∀ expr, (evaluate expr).Tidy) (ordered : context.limit ≤ higher.toNat)
    (inside : ∀ inner, call.opened context = .ok inner →
      (evaluate call.function.body).Shortens inner higher) :
    (call.evaluateWith evaluate).Shortens context higher := by
  by_cases deep : context.limit ≤ context.callDepth + 1
  · exact evaluateWith_shortens_of_refused tidy (opened_of_deep deep) fun _ => deep
  by_cases full : call.function.isLambda = false ∧ context.limit ≤ context.frameDepth
  · exact evaluateWith_shortens_of_refused tidy (opened_of_full deep full.1 full.2)
      fun shallow => Nat.le_trans full.2 shallow
  -- There is room under the limit, so there is under the higher one.
  have roomForFrame (ordinary : call.function.isLambda = false) :
      ¬ context.limit ≤ context.frameDepth := fun tooMany => full ⟨ordinary, tooMany⟩
  have opens := opened_of_room deep roomForFrame
  have highOpens : call.opened (context.withLimit higher) =
      (Scope.arguments call.function.parameters call.arguments).opened
        (call.frameOf (context.withLimit higher)) := by
    refine opened_of_room ?_ fun ordinary => ?_
    · exact fun tooDeep => deep (Nat.le_trans ordered tooDeep)
    · exact fun tooMany => roomForFrame ordinary (Nat.le_trans ordered tooMany)
  have unlimited : (Scope.arguments call.function.parameters call.arguments).Unlimited := trivial
  obtain ⟨sameLimit, shallower⟩ := call.frameOf_kept context
  have entered : (call.around (evaluate call.function.body)).Shortens context higher := by
    refine (call.around_enters (tidy call.function.body)).shortens ?_ ?_ ?_ inside
    · rw [highOpens, opens, frameOf_withLimit]
      exact Scope.opened_withLimit unlimited _ higher
    · rw [opens]
      exact fun error refused => Scope.kind_of_opened unlimited refused
    · rw [opens]
      intro inner binds
      have same := Scope.sameCounters_of_opened binds unlimited
      exact ⟨same.limit.trans sameLimit, fun shallow => same.shallow (shallower shallow)⟩
  have within : ¬ context.limit - 1 ≤ context.callDepth := by omega
  constructor
  · rw [evaluateWith_apply, evaluateWith_apply]
    refine entered.ends.after _ fun _ => ?_
    rw [firstExcess?_attempt]
    exact if_neg within
  · intro shallow
    rw [evaluateWith_apply]
    exact FramesGranted.call (entered.granted shallow) fun ordinary _ =>
      around_events_of_room (tidy call.function.body) ordinary deep (roomForFrame ordinary)

end ArmedCall

/-!
## Evaluation under two limits
-/

theorem Context.lookupVariable_shortens (name : Name) {context : Context} {higher : UInt64} :
    (Context.lookupVariable name).Shortens context higher := by
  have sameFound : (context.withLimit higher).findVariable? name.text =
      context.findVariable? name.text := rfl
  refine .of_silent (fun context => ?_) ?_ ?_
  · rw [lookupVariable]
    split <;> rfl
  · rw [lookupVariable, lookupVariable, sameFound]
    cases context.findVariable? name.text <;> rfl
  · rintro ⟨error, failed, kind⟩
    rw [lookupVariable] at failed
    split at failed <;> cases failed
    cases kind

theorem Context.lookupFunction_shortens (name : Name) (arity : Nat) {context : Context}
    {higher : UInt64} : (Context.lookupFunction name arity).Shortens context higher := by
  have sameFound : (context.withLimit higher).findFunction? ⟨name.text, arity⟩ =
      context.findFunction? ⟨name.text, arity⟩ := rfl
  refine .of_silent (fun context => ?_) ?_ ?_
  · rw [lookupFunction]
    split <;> rfl
  · rw [lookupFunction, lookupFunction, sameFound]
    cases context.findFunction? ⟨name.text, arity⟩ <;> rfl
  · rintro ⟨error, failed, kind⟩
    rw [lookupFunction] at failed
    split at failed <;> cases failed
    cases kind

theorem Function.arm_shortens (function : Function) (values : List Value) (span : Span)
    {context : Context} {higher : UInt64} :
    (Action.ofExcept (function.arm values span)).Shortens context higher := by
  rw [Function.arm]
  split
  · exact .done _
  · refine .of_silent (fun _ => rfl) rfl ?_
    rintro ⟨error, failed, kind⟩
    cases failed
    cases kind

section Parts

variable {context : Context} {higher : UInt64}

theorem evaluateEach_shortens {arguments : List Expr}
    (each : ∀ argument ∈ arguments, argument.evaluate.Shortens context higher) :
    (evaluateEach Expr.evaluate arguments).Shortens context higher := by
  induction arguments with
  | nil => exact .done []
  | cons argument rest ih =>
      have others := ih fun other member => each other (List.mem_cons_of_mem argument member)
      exact .bind argument.evaluate_tidy (each argument List.mem_cons_self) fun value _ =>
        .bind (evaluateEach_tidy Expr.evaluate_tidy rest) others fun values _ => .done _

theorem Condition.evaluateWith_shortens {condition : Condition}
    (each : ∀ operand ∈ condition.operands, operand.evaluate.Shortens context higher) :
    (condition.evaluateWith Expr.evaluate).Shortens context higher := by
  cases condition with
  | truthy operand span =>
      exact .bind operand.evaluate_tidy (each operand List.mem_cons_self) fun value _ => .done _
  | comparison op left right span =>
      have onRight := each right (List.mem_cons_of_mem left List.mem_cons_self)
      exact .bind left.evaluate_tidy (each left List.mem_cons_self) fun leftValue _ =>
        .bind right.evaluate_tidy onRight fun rightValue _ => .done _

end Parts

theorem Task.shortens (task : Task) {higher : UInt64}
    (ordered : task.context.limit ≤ higher.toNat) :
    task.expr.evaluate.Shortens task.context higher := by
  induction task using wellFounded_invokes.induction with
  | _ task ih =>
  obtain ⟨expr, context⟩ := task
  rw [show expr.evaluate = expr.evaluateWith Expr.evaluate from funext expr.evaluate_eq]
  cases expr with
  | literal value => exact .done value
  | var name => exact Context.lookupVariable_shortens name
  | additive op left right span =>
      exact .bind left.evaluate_tidy (ih _ .left ordered) fun leftValue _ =>
        .bind right.evaluate_tidy (ih _ .right ordered) fun rightValue _ => .done _
  | letIn name value body span =>
      refine .bind value.evaluate_tidy (ih _ .letValue ordered) fun bound _ => ?_
      refine Scope.around_shortens body.evaluate_tidy trivial fun inner opens => ?_
      exact ih _ (.letBody opens) (Scope.limit_of_opened opens ▸ ordered)
  | lambda function usage span =>
      refine Scope.around_shortens usage.evaluate_tidy trivial fun inner opens => ?_
      exact ih _ (.usage opens) (Scope.limit_of_opened opens ▸ ordered)
  | call name arguments span =>
      refine .bind (Context.lookupFunction_tidy name arguments.length)
        (Context.lookupFunction_shortens name arguments.length) fun function resolved => ?_
      have found := Context.findFunction?_of_lookupFunction resolved
      refine .bind (evaluateEach_tidy Expr.evaluate_tidy arguments)
        (evaluateEach_shortens fun argument member => ih _ (.argument member) ordered)
        fun values _ => ?_
      refine .bind (.ofExcept _) (function.arm_shortens values span) fun call armed => ?_
      rw [Action.ofExcept_result] at armed
      obtain ⟨_, rfl⟩ := Function.arm_eq_ok_iff.mp armed
      refine ArmedCall.evaluateWith_shortens Expr.evaluate_tidy ordered fun inner opens => ?_
      exact ih _ (.body found opens) (ArmedCall.limit_of_opened opens ▸ ordered)
  | ifThenElse condition whenTrue whenFalse span =>
      refine .bind (Condition.evaluateWith_tidy Expr.evaluate_tidy condition)
        (Condition.evaluateWith_shortens fun operand member => ih _ (.operand member) ordered)
        fun truth _ => ?_
      cases truth with
      | true => exact ih _ .whenTrue ordered
      | false => exact ih _ .whenFalse ordered

/-- A limit only cuts runs short. What a run yields, or fails with for another reason, it yields
under every higher limit. In a context with at most one frame more than calls in progress, a run
ends at the limit exactly if under a higher one it attempts a call while at least `low - 1` calls
are in progress; the error points at the first such call, and no call that the limit on calls lets
pass is refused for the number of frames. -/
theorem limit_cuts_at_first_excess_call (expr : Expr) (context : Context) {low high : UInt64}
    (ordered : low ≤ high) :
    (¬ (expr.evaluate (context.withLimit low)).AtLimit →
        (expr.evaluate (context.withLimit high)).result =
          (expr.evaluate (context.withLimit low)).result) ∧
      (context.frameDepth ≤ context.callDepth + 1 →
        ((expr.evaluate (context.withLimit low)).AtLimit ↔
          ∃ function depth span, .callingFunction function depth span ∈
            (expr.evaluate (context.withLimit high)).events ∧ low.toNat - 1 ≤ depth) ∧
        (∀ error, (expr.evaluate (context.withLimit low)).result = .error error →
          error.kind = .recursionLimit →
            firstExcess? low.toNat (expr.evaluate (context.withLimit high)).events =
              some error.span) ∧
        FramesGranted low.toNat (expr.evaluate (context.withLimit low)).events ∧
        FramesGranted high.toNat (expr.evaluate (context.withLimit high)).events) := by
  have run : expr.evaluate.Shortens (context.withLimit low) high := Task.shortens ⟨_, _⟩ ordered
  have longRun : expr.evaluate.Shortens (context.withLimit high) high :=
    Task.shortens ⟨_, _⟩ (Nat.le_refl _)
  obtain ⟨ends, granted⟩ := run
  rw [← exists_excess_iff]
  cases ends with
  | alike same within =>
      refine ⟨fun _ => same.symm, fun shallow => ⟨?_, ?_, granted shallow, longRun.granted shallow⟩⟩
      · obtain ⟨none, other⟩ := within shallow
        exact iff_of_false other fun ⟨span, found⟩ => by cases none.symm.trans found
      · intro error failed kind
        exact absurd ⟨error, failed, kind⟩ (within shallow).2
  | refused span cut first =>
      have atLimit : (expr.evaluate (context.withLimit low)).AtLimit := ⟨_, cut, rfl⟩
      refine ⟨fun other => absurd atLimit other, fun shallow => ⟨?_, ?_, granted shallow,
        longRun.granted shallow⟩⟩
      · exact iff_of_true atLimit ⟨span, first shallow⟩
      · intro error failed _
        cases cut.symm.trans failed
        exact first shallow

theorem endless_call_is_cut :
    (3 : UInt64) ≤ 5 ∧ Context.withEndless.Shallow ∧
      (Function.endless.body.evaluate (Context.withEndless.withLimit 3)).AtLimit ∧
      ∃ function depth span, .callingFunction function depth span ∈
        (Function.endless.body.evaluate (Context.withEndless.withLimit 5)).events ∧
          3 - 1 ≤ depth := by
  have ordered : (3 : UInt64) ≤ 5 := by decide
  have shallow : Context.withEndless.Shallow := Nat.le_refl 1
  have atLimit : (Function.endless.body.evaluate (Context.withEndless.withLimit 3)).AtLimit :=
    ⟨⟨.depthExceeded 3, Span.empty⟩, by rfl, rfl⟩
  have cut := limit_cuts_at_first_excess_call Function.endless.body Context.withEndless ordered
  exact ⟨ordered, shallow, atLimit, (cut.2 shallow).1.mp atLimit⟩

end FrameLang
