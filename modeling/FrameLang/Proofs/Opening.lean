import FrameLang.Evaluation

/-!
Scopes as plain writes. `Scope.opened` says which context the work inside a scope sees, or why the
scope is refused, without mentioning a release. Entering a scope arrives at exactly that context,
and leaving it from there arrives at the context outside, whatever the work yielded.
-/

set_option autoImplicit false

namespace FrameLang

/-- No release is reported as failed. -/
def Quiet (events : List Event) : Prop :=
  ∀ kept secondary, Event.releaseFailed kept secondary ∉ events

@[simp] theorem quiet_nil : Quiet [] := by
  simp [Quiet]

theorem Quiet.append {earlier later : List Event} (first : Quiet earlier) (second : Quiet later) :
    Quiet (earlier ++ later) := by
  intro kept secondary member
  rcases List.mem_append.mp member with inEarlier | inLater
  · exact first kept secondary inEarlier
  · exact second kept secondary inLater

/-!
## Writes
-/

namespace Context

def counted (context : Context) : Context := { context with callDepth := context.callDepth + 1 }

def pushed (context : Context) : Context := { context with upper := {} :: context.upper }

def withVariable (context : Context) (name : String) (value : Value) : Context :=
  context.mapCurrent fun frame => { frame with vars := frame.vars.insert name value }

def withFunction (context : Context) (function : Function) : Context :=
  context.mapCurrent fun frame =>
    { frame with functions := frame.functions.insert function.signature function }

/-- Binds from left to right, up to the first name that is taken when its turn comes. -/
def withArguments (context : Context) : List (Name × Value) → Except Error Context
  | [] => .ok context
  | (name, value) :: rest =>
    match context.current.vars.find? name.text with
    | some _ => .error ⟨.variableBound name.text, name.span⟩
    | none => (context.withVariable name.text value).withArguments rest

/-- What is reported while the arguments are bound, up to the first name that is taken. -/
def boundEvents (context : Context) : List (Name × Value) → List Event
  | [] => []
  | (name, value) :: rest =>
    match context.current.vars.find? name.text with
    | some _ => []
    | none =>
      .boundVariable name.text value :: (context.withVariable name.text value).boundEvents rest

variable {context : Context}

theorem bindVariable_of_fresh {name : Name} (fresh : context.current.vars.find? name.text = none)
    (value : Value) :
    bindVariable name value context =
      { result := .ok (), context := context.withVariable name.text value,
        events := [.boundVariable name.text value] } := by
  simp only [bindVariable, fresh]
  rfl

theorem bindVariable_of_taken {name : Name} {old : Value}
    (taken : context.current.vars.find? name.text = some old) (value : Value) :
    bindVariable name value context =
      { result := .error ⟨.variableBound name.text, name.span⟩, context } := by
  simp only [bindVariable, taken]
  rfl

theorem unbindVariable_withVariable {name : Name}
    (fresh : context.current.vars.find? name.text = none) (value : Value) :
    unbindVariable name (context.withVariable name.text value) =
      { result := .ok value, context } := by
  have restored := mapCurrent_mapCurrent_of_inverse context
    (fun frame => { frame with vars := frame.vars.insert name.text value })
    (fun frame => { frame with vars := frame.vars.erase name.text })
    (by simp only [Bindings.erase_insert fresh])
  simp only [unbindVariable, withVariable, current_mapCurrent, Bindings.find?_insert_self, restored]

theorem bindFunction_of_fresh {function : Function}
    (fresh : context.current.functions.find? function.signature = none) :
    bindFunction function context =
      { result := .ok (), context := context.withFunction function,
        events := [.registeredFunction function] } := by
  simp only [bindFunction, fresh]
  rfl

theorem bindFunction_of_taken {function old : Function}
    (taken : context.current.functions.find? function.signature = some old) :
    bindFunction function context =
      { result := .error ⟨.functionDefined function.name.text function.arity, function.span⟩,
        context } := by
  simp only [bindFunction, taken]
  rfl

theorem unbindFunction_withFunction {function : Function}
    (fresh : context.current.functions.find? function.signature = none) :
    unbindFunction function (context.withFunction function) =
      { result := .ok function, context } := by
  have restored := mapCurrent_mapCurrent_of_inverse context
    (fun frame => { frame with functions := frame.functions.insert function.signature function })
    (fun frame => { frame with functions := frame.functions.erase function.signature })
    (by simp only [Bindings.erase_insert fresh])
  simp only [unbindFunction, withFunction, current_mapCurrent, Bindings.find?_insert_self, restored]

/-!
## Rows of arguments
-/

/-- Unbinding all the names from the one context arrives at the other without a failure. -/
def Unwinds (names : List Name) (context outer : Context) : Prop :=
  unbindEach names context = { result := .ok (), context := outer }

theorem Unwinds.nil (context : Context) : Unwinds [] context context := rfl

theorem Unwinds.cons {names : List Name} {outer : Context} {name : Name} {value : Value}
    (unwinds : Unwinds names context outer)
    (fresh : context.current.vars.find? name.text = none) :
    Unwinds (name :: names) (context.withVariable name.text value) outer := by
  have rest : unbindEach names context = { result := .ok (), context := outer } := unwinds
  change (Action.attempt (unbindVariable name) >>= _) _ = _
  rw [Action.attempt_bind, unbindVariable_withVariable fresh, Action.attempt_bind, rest]
  rfl

theorem bindEach_cons_of_fresh {bound : List Name} {name : Name} {rest : List (Name × Value)}
    (fresh : context.current.vars.find? name.text = none) (value : Value) :
    bindEach bound ((name, value) :: rest) context =
      (bindEach (name :: bound) rest (context.withVariable name.text value)).after
        [.boundVariable name.text value] := by
  change (Action.attempt (bindVariable name value) >>= _) context = _
  rw [Action.attempt_bind, bindVariable_of_fresh fresh]

theorem bindEach_cons_of_taken {outer : Context} {bound : List Name} {name : Name} {old : Value}
    (unwinds : Unwinds bound context outer)
    (taken : context.current.vars.find? name.text = some old) (value : Value)
    (rest : List (Name × Value)) :
    bindEach bound ((name, value) :: rest) context =
      { result := .error ⟨.variableBound name.text, name.span⟩, context := outer } := by
  have undone : unbindEach bound context = { result := .ok (), context := outer } := unwinds
  change (Action.attempt (bindVariable name value) >>= _) context = _
  rw [Action.attempt_bind, bindVariable_of_taken taken]
  change ((Action.attempt (unbindEach bound) >>= _) context).after [] = _
  rw [Action.attempt_bind, undone]
  rfl

/-- Binding the remaining arguments arrives where they are all written. The names bound so far and
the new ones can then be unbound together. -/
theorem bindEach_of_ok {outer inner : Context} {bound : List Name} {pairs : List (Name × Value)}
    (unwinds : Unwinds bound context outer) (arrives : context.withArguments pairs = .ok inner) :
    (bindEach bound pairs context).result = .ok () ∧
      (bindEach bound pairs context).context = inner ∧
      Quiet (bindEach bound pairs context).events ∧
      Unwinds ((pairs.map Prod.fst).reverse ++ bound) inner outer := by
  induction pairs generalizing context bound with
  | nil =>
      cases arrives
      exact ⟨rfl, rfl, quiet_nil, unwinds⟩
  | cons pair rest ih =>
      obtain ⟨name, value⟩ := pair
      cases found : context.current.vars.find? name.text with
      | some old => simp only [withArguments, found, reduceCtorEq] at arrives
      | none =>
          simp only [withArguments, found] at arrives
          obtain ⟨succeeded, arrived, quiet, unwound⟩ := ih (unwinds.cons found) arrives
          rw [bindEach_cons_of_fresh found]
          refine ⟨succeeded, arrived, .append (by simp [Quiet]) quiet, ?_⟩
          simpa only [List.map_cons, List.reverse_cons, List.append_assoc, List.singleton_append]
            using unwound

/-- A row of arguments that is refused half way leaves nothing bound. -/
theorem bindEach_of_error {outer : Context} {bound : List Name} {pairs : List (Name × Value)}
    {error : Error} (unwinds : Unwinds bound context outer)
    (refused : context.withArguments pairs = .error error) :
    (bindEach bound pairs context).result = .error error ∧
      (bindEach bound pairs context).context = outer ∧
      Quiet (bindEach bound pairs context).events := by
  induction pairs generalizing context bound with
  | nil => cases refused
  | cons pair rest ih =>
      obtain ⟨name, value⟩ := pair
      cases found : context.current.vars.find? name.text with
      | some old =>
          simp only [withArguments, found] at refused
          cases refused
          rw [bindEach_cons_of_taken unwinds found]
          exact ⟨rfl, rfl, quiet_nil⟩
      | none =>
          simp only [withArguments, found] at refused
          obtain ⟨failed, arrived, quiet⟩ := ih (unwinds.cons found) refused
          rw [bindEach_cons_of_fresh found]
          exact ⟨failed, arrived, .append (by simp [Quiet]) quiet⟩

theorem bindEach_events {outer : Context} {bound : List Name} {pairs : List (Name × Value)}
    (unwinds : Unwinds bound context outer) :
    (bindEach bound pairs context).events = context.boundEvents pairs := by
  induction pairs generalizing context bound with
  | nil => rfl
  | cons pair rest ih =>
      obtain ⟨name, value⟩ := pair
      cases found : context.current.vars.find? name.text with
      | some old =>
          rw [bindEach_cons_of_taken unwinds found]
          simp only [boundEvents, found]
      | none =>
          rw [bindEach_cons_of_fresh found]
          simp only [boundEvents, found, ← ih (unwinds.cons found)]
          rfl

end Context

/-!
## Scopes
-/

namespace Scope

/-- The context that the work inside the scope sees. -/
def opened (context : Context) : Scope → Except Error Context
  | call span =>
    if context.limit ≤ context.callDepth + 1 then .error (context.depthExceeded span)
    else .ok context.counted
  | frame span =>
    if context.limit ≤ context.frameDepth then .error (context.depthExceeded span)
    else .ok context.pushed
  | var name value => context.withArguments [(name, value)]
  | arguments parameters values =>
    if parameters.length = values.length then context.withArguments (parameters.zip values)
    else .error ⟨.parameterCount values.length parameters.length, Span.empty⟩
  | function definition =>
    match context.current.functions.find? definition.signature with
    | some _ =>
      .error ⟨.functionDefined definition.name.text definition.arity, definition.span⟩
    | none => .ok (context.withFunction definition)

section Opened

variable {context inner : Context} {span : Span} {error : Error}

theorem opened_call_ok_iff :
    (call span).opened context = .ok inner ↔
      ¬ context.limit ≤ context.callDepth + 1 ∧ inner = context.counted := by
  rw [opened]
  split
  next deep => simp only [deep, reduceCtorEq, not_true_eq_false, false_and]
  next room => simp only [room, Except.ok.injEq, not_false_eq_true, true_and, eq_comm]

theorem opened_call_error_iff :
    (call span).opened context = .error error ↔
      context.limit ≤ context.callDepth + 1 ∧ error = context.depthExceeded span := by
  rw [opened]
  split
  next deep => simp only [deep, Except.error.injEq, true_and, eq_comm]
  next room => simp only [room, reduceCtorEq, false_and]

theorem opened_frame_ok_iff :
    (frame span).opened context = .ok inner ↔
      ¬ context.limit ≤ context.frameDepth ∧ inner = context.pushed := by
  rw [opened]
  split
  next deep => simp only [deep, reduceCtorEq, not_true_eq_false, false_and]
  next room => simp only [room, Except.ok.injEq, not_false_eq_true, true_and, eq_comm]

theorem opened_frame_error_iff :
    (frame span).opened context = .error error ↔
      context.limit ≤ context.frameDepth ∧ error = context.depthExceeded span := by
  rw [opened]
  split
  next deep => simp only [deep, Except.error.injEq, true_and, eq_comm]
  next room => simp only [room, reduceCtorEq, false_and]

theorem opened_var_ok_iff {name : Name} {value : Value} :
    (var name value).opened context = .ok inner ↔
      context.current.vars.find? name.text = none ∧
        inner = context.withVariable name.text value := by
  rw [opened, Context.withArguments]
  split
  next old taken => simp only [taken, reduceCtorEq, false_and]
  next fresh => simp only [fresh, Context.withArguments, Except.ok.injEq, true_and, eq_comm]

theorem opened_var_error_iff {name : Name} {value : Value} :
    (var name value).opened context = .error error ↔
      (∃ old, context.current.vars.find? name.text = some old) ∧
        error = ⟨.variableBound name.text, name.span⟩ := by
  rw [opened, Context.withArguments]
  split
  next old taken => simp [taken, eq_comm]
  next fresh => simp [fresh, Context.withArguments]

theorem opened_arguments_ok_iff {parameters : List Name} {values : List Value} :
    (arguments parameters values).opened context = .ok inner ↔
      parameters.length = values.length ∧
        context.withArguments (parameters.zip values) = .ok inner := by
  rw [opened]
  split
  next same => simp only [same, true_and]
  next different => simp only [different, reduceCtorEq, false_and]

theorem opened_function_ok_iff {definition : Function} :
    (function definition).opened context = .ok inner ↔
      context.current.functions.find? definition.signature = none ∧
        inner = context.withFunction definition := by
  rw [opened]
  split
  next old taken => simp only [taken, reduceCtorEq, false_and]
  next fresh => simp only [fresh, Except.ok.injEq, true_and, eq_comm]

theorem opened_function_error_iff {definition : Function} :
    (function definition).opened context = .error error ↔
      (∃ old, context.current.functions.find? definition.signature = some old) ∧
        error = ⟨.functionDefined definition.name.text definition.arity, definition.span⟩ := by
  rw [opened]
  split
  next old taken => simp [taken, eq_comm]
  next fresh => simp [fresh]

end Opened

/-- What is reported while the scope is entered, also if it is refused in the end. -/
def opening (context : Context) : Scope → List Event
  | call _ => []
  | frame _ =>
    if context.limit ≤ context.frameDepth then [] else [.pushedFrame (context.frameDepth + 1)]
  | var name value => context.boundEvents [(name, value)]
  | arguments parameters values =>
    if parameters.length = values.length then context.boundEvents (parameters.zip values) else []
  | function definition =>
    match context.current.functions.find? definition.signature with
    | some _ => []
    | none => [.registeredFunction definition]

theorem enter_events (scope : Scope) (context : Context) :
    (scope.enter context).events = scope.opening context := by
  cases scope with
  | call span =>
      simp only [enter, opening]
      split <;> rfl
  | frame span =>
      simp only [enter, Context.pushFrame, opening]
      split <;> rfl
  | var name value =>
      simp only [enter, Context.bindVariable, opening, Context.boundEvents]
      cases context.current.vars.find? name.text <;> rfl
  | arguments parameters values =>
      simp only [enter, opening]
      split
      · exact Context.bindEach_events (.nil context)
      · rfl
  | function definition =>
      simp only [enter, Context.bindFunction, opening]
      cases context.current.functions.find? definition.signature <;> rfl

def closing (context : Context) : Scope → List Event
  | frame _ => [.poppedFrame context.frameDepth]
  | _ => []

theorem closing_quiet (scope : Scope) (context : Context) : Quiet (scope.closing context) := by
  cases scope <;> simp [Quiet, closing]

theorem enter_of_error {scope : Scope} {context : Context} {error : Error}
    (refused : scope.opened context = .error error) :
    (scope.enter context).result = .error error ∧ (scope.enter context).context = context ∧
      Quiet (scope.enter context).events := by
  cases scope with
  | call span =>
      obtain ⟨deep, rfl⟩ := opened_call_error_iff.mp refused
      simp only [enter, deep, ↓reduceIte]
      exact ⟨rfl, rfl, quiet_nil⟩
  | frame span =>
      obtain ⟨deep, rfl⟩ := opened_frame_error_iff.mp refused
      simp only [enter, Context.pushFrame, deep, ↓reduceIte]
      exact ⟨rfl, rfl, quiet_nil⟩
  | var name value =>
      obtain ⟨⟨old, taken⟩, rfl⟩ := opened_var_error_iff.mp refused
      rw [enter, Context.bindVariable_of_taken taken]
      exact ⟨rfl, rfl, quiet_nil⟩
  | arguments parameters values =>
      rw [opened] at refused
      split at refused
      next same =>
        simp only [enter, same, ↓reduceIte]
        exact Context.bindEach_of_error (.nil context) refused
      next different =>
        cases refused
        simp only [enter, different, ↓reduceIte]
        exact ⟨rfl, rfl, quiet_nil⟩
  | function definition =>
      obtain ⟨⟨old, taken⟩, rfl⟩ := opened_function_error_iff.mp refused
      rw [enter, Context.bindFunction_of_taken taken]
      exact ⟨rfl, rfl, quiet_nil⟩

theorem enter_of_ok {scope : Scope} {context inner : Context}
    (opens : scope.opened context = .ok inner) :
    (scope.enter context).result = .ok () ∧ (scope.enter context).context = inner ∧
      Quiet (scope.enter context).events := by
  cases scope with
  | call span =>
      obtain ⟨room, rfl⟩ := opened_call_ok_iff.mp opens
      simp [enter, room, Context.counted]
  | frame span =>
      obtain ⟨room, rfl⟩ := opened_frame_ok_iff.mp opens
      simp [enter, Context.pushFrame, room, Quiet, Context.pushed]
  | var name value =>
      obtain ⟨fresh, rfl⟩ := opened_var_ok_iff.mp opens
      rw [enter, Context.bindVariable_of_fresh fresh]
      exact ⟨rfl, rfl, by simp [Quiet]⟩
  | arguments parameters values =>
      obtain ⟨same, arrives⟩ := opened_arguments_ok_iff.mp opens
      obtain ⟨succeeded, arrived, quiet, _⟩ := Context.bindEach_of_ok (.nil context) arrives
      simp only [enter, same, ↓reduceIte]
      exact ⟨succeeded, arrived, quiet⟩
  | function definition =>
      obtain ⟨fresh, rfl⟩ := opened_function_ok_iff.mp opens
      rw [enter, Context.bindFunction_of_fresh fresh]
      exact ⟨rfl, rfl, by simp [Quiet]⟩

/-- A scope that is left from the context it was entered at yields what the work yielded. -/
theorem leave_of_ok {α : Type} {scope : Scope} {context inner : Context}
    (opens : scope.opened context = .ok inner) (result : Except Error α) :
    scope.leave context.upper.length result inner =
      { result, context, events := scope.closing context } := by
  cases scope with
  | call span =>
      obtain ⟨_, rfl⟩ := opened_call_ok_iff.mp opens
      cases result <;> rfl
  | frame span =>
      obtain ⟨_, rfl⟩ := opened_frame_ok_iff.mp opens
      have balanced : context.pushed.frameDepth = context.upper.length + 2 := rfl
      change ((if _ then _ else _ : Action α) _).after [] = _
      rw [if_pos balanced, Action.attempt_bind]
      cases result <;> rfl
  | var name value =>
      obtain ⟨fresh, rfl⟩ := opened_var_ok_iff.mp opens
      rw [leave, Action.attempt_bind, Context.unbindVariable_withVariable fresh]
      cases result <;> rfl
  | arguments parameters values =>
      obtain ⟨same, arrives⟩ := opened_arguments_ok_iff.mp opens
      obtain ⟨_, _, _, unwinds⟩ := Context.bindEach_of_ok (.nil context) arrives
      rw [List.append_nil, List.map_fst_zip (Nat.le_of_eq same)] at unwinds
      have undone : Context.unbindEach parameters.reverse inner =
          { result := .ok (), context } := unwinds
      rw [leave, Action.attempt_bind, undone]
      cases result <;> rfl
  | function definition =>
      obtain ⟨fresh, rfl⟩ := opened_function_ok_iff.mp opens
      rw [leave, Action.attempt_bind, Context.unbindFunction_withFunction fresh]
      cases result <;> rfl

end Scope

namespace ArmedCall

/-- A lambda keeps the frame of its caller, any other function gets a fresh one. -/
def framed (context : Context) (call : ArmedCall) : Except Error Context :=
  if call.function.isLambda then .ok context else (Scope.frame call.span).opened context

/-- The context that the body of the called function sees. -/
def opened (context : Context) (call : ArmedCall) : Except Error Context := do
  let counted ← (Scope.call call.span).opened context
  let framed ← call.framed counted
  (Scope.arguments call.function.parameters call.arguments).opened framed

theorem scopes_of_opened {call : ArmedCall} {context inner : Context}
    (opens : call.opened context = .ok inner) :
    ∃ counted framed,
      (Scope.call call.span).opened context = .ok counted ∧ call.framed counted = .ok framed ∧
        (Scope.arguments call.function.parameters call.arguments).opened framed = .ok inner := by
  obtain ⟨counted, counts, rest⟩ := except_bind_eq_ok_iff.mp opens
  obtain ⟨framed, frames, binds⟩ := except_bind_eq_ok_iff.mp rest
  exact ⟨counted, framed, counts, frames, binds⟩

end ArmedCall

end FrameLang
