import FrameLang.Proofs.ArgumentScope

/-!
Parameters that are bound together in one scope, against one scope inside the other for each of
them. The two bind in the same order, take back in the opposite order and settle on the same error,
whatever the work inside does. Only the reports of releases that fail behind a failure differ: the
one scope reports such a failure once, the nested scopes once for each of them.
-/

set_option autoImplicit false

namespace FrameLang

/-- A failed release is reported behind another failure. -/
def Event.IsReleaseWarning (event : Event) : Prop :=
  ∃ kept secondary, event = .releaseFailed kept secondary

/-- The outcomes have the same result and the same context, and the same events up to reports of
failed releases at their ends. -/
structure Outcome.SameUpToWarnings {α : Type} (first second : Outcome α) : Prop where
  result : second.result = first.result
  context : second.context = first.context
  events : ∃ shared warnings others,
    first.events = shared ++ warnings ∧ second.events = shared ++ others ∧
      (∀ event ∈ warnings, event.IsReleaseWarning) ∧ ∀ event ∈ others, event.IsReleaseWarning

/-!
## Taking back
-/

theorem Action.warnings_of_release {α β : Type} (result : Except Error α)
    (released : Except Error β) (context : Context) :
    ∀ event ∈ (release result released context).events, event.IsReleaseWarning := by
  intro event member
  cases result with
  | ok value => cases released <;> cases member
  | error error =>
      cases released with
      | ok other => cases member
      | error secondary =>
          rw [List.mem_singleton.mp member]
          exact ⟨error, secondary, rfl⟩

namespace Context

variable (context : Context)

theorem unbindVariable_events (name : Name) : (unbindVariable name context).events = [] := by
  simp only [unbindVariable]
  split <;> rfl

theorem unbindEach_events (names : List Name) : (unbindEach names context).events = [] := by
  induction names generalizing context with
  | nil => rfl
  | cons name rest ih =>
      simp only [unbindEach, Action.attempt_bind, Outcome.after, unbindVariable_events, ih,
        List.nil_append]
      cases (unbindVariable name context).result with
      | error error => rfl
      | ok value => cases (unbindEach rest (unbindVariable name context).context).result <;> rfl

theorem unbindEach_append_context (first second : List Name) :
    (unbindEach (first ++ second) context).context =
      (unbindEach second (unbindEach first context).context).context := by
  induction first generalizing context with
  | nil => rfl
  | cons name rest ih => simp only [List.cons_append, unbindEach_cons_context, ih]

end Context

theorem seqLeft_assoc {α β γ : Type} (result : Except Error α) (first : Except Error β)
    (second : Except Error γ) : (result <* first) <* second = result <* (first <* second) := by
  cases result <;> cases first <;> cases second <;> rfl

/-- What becomes of the outcome of some work in which the names were bound: they are taken back, the
newest first, and of the work and the releases the first failure stands. -/
structure BoundAround {α : Type} (names : List Name) (before : List Event)
    (worked outcome : Outcome α) : Prop where
  result : outcome.result =
    worked.result <* (Context.unbindEach names.reverse worked.context).result
  context : outcome.context = (Context.unbindEach names.reverse worked.context).context
  events : ∃ warnings, outcome.events = before ++ worked.events ++ warnings ∧
    ∀ event ∈ warnings, event.IsReleaseWarning

theorem BoundAround.sameUpToWarnings {α : Type} {names : List Name} {before : List Event}
    {worked first second : Outcome α} (one : BoundAround names before worked first)
    (other : BoundAround names before worked second) : first.SameUpToWarnings second := by
  obtain ⟨warnings, firstEvents, areWarnings⟩ := one.events
  obtain ⟨others, secondEvents, othersWarn⟩ := other.events
  exact
    { result := other.result.trans one.result.symm
      context := other.context.trans one.context.symm
      events := ⟨_, warnings, others, firstEvents, secondEvents, areWarnings, othersWarn⟩ }

/-- A name that is bound first is taken back last. -/
theorem BoundAround.within {α : Type} {name : Name} {names : List Name} {first later : List Event}
    {worked middle outcome : Outcome α} (inside : BoundAround names later worked middle)
    (outside : BoundAround [name] first middle outcome) :
    BoundAround (name :: names) (first ++ later) worked outcome where
  result := by
    rw [outside.result, List.reverse_singleton, inside.result, inside.context, seqLeft_assoc,
      List.reverse_cons, Context.unbindEach_append_result]
  context := by
    rw [outside.context, List.reverse_singleton, inside.context, List.reverse_cons,
      Context.unbindEach_append_context]
  events := by
    obtain ⟨warnings, insideEvents, areWarnings⟩ := inside.events
    obtain ⟨others, outsideEvents, othersWarn⟩ := outside.events
    refine ⟨warnings ++ others, ?_, List.forall_mem_append.mpr ⟨areWarnings, othersWarn⟩⟩
    simp only [outsideEvents, insideEvents, List.append_assoc]

/-!
## One scope for all, or one for each
-/

namespace Scope

variable {α : Type} {context inner : Context}

theorem around_arguments_boundAround {parameters : List Name} {values : List Value}
    (opens : (arguments parameters values).opened context = .ok inner) (work : Action α) :
    BoundAround parameters (context.boundEvents (parameters.zip values)) (work inner)
      ((arguments parameters values).around work context) := by
  obtain ⟨entered, arrived, _⟩ := enter_of_ok opens
  have binds : ((arguments parameters values).enter context).events =
      context.boundEvents (parameters.zip values) := by
    rw [enter_events, opening, if_pos (opened_arguments_ok_iff.mp opens).1]
  simp only [around_of_entered entered, arrived, binds, leave, Action.attempt_bind, Outcome.after,
    Context.unbindEach_events, List.nil_append]
  exact
    { result := release_result ..
      context := Action.release_context ..
      events := ⟨_, rfl, Action.warnings_of_release _ _ _⟩ }

theorem around_var_boundAround {name : Name} (fresh : context.current.vars.find? name.text = none)
    (value : Value) (work : Action α) :
    BoundAround [name] [.boundVariable name.text value]
      (work (context.withVariable name.text value))
      ((var name value).around work context) := by
  have enters : (var name value).enter context =
      { result := .ok (), context := context.withVariable name.text value,
        events := [.boundVariable name.text value] } := Context.bindVariable_of_fresh fresh value
  have entered : ((var name value).enter context).result = .ok () := by rw [enters]
  have one (left : Context) :
      (Context.unbindEach [name] left).result =
        (Context.unbindVariable name left).result.map fun _ => () := by
    rw [Context.unbindEach_cons_result]
    cases (Context.unbindVariable name left).result <;> rfl
  simp only [around_of_entered entered, enters, leave, Action.attempt_bind, Outcome.after,
    Context.unbindVariable_events, List.nil_append]
  exact
    { result := by rw [List.reverse_singleton, one, seqLeft_map, release_result]
      context := by
        rw [List.reverse_singleton, Context.unbindEach_cons_context, Action.release_context]
        rfl
      events := ⟨_, rfl, Action.warnings_of_release _ _ _⟩ }

/-- The work inside a scope for each of the variables, that of the first one outermost. -/
def nested : List (Name × Value) → Action α → Action α
  | [], work => work
  | (name, value) :: rest, work => (var name value).around (nested rest work)

theorem nested_of_refused {pairs : List (Name × Value)} {error : Error}
    (refused : context.withArguments pairs = .error error) (work : Action α) :
    nested pairs work context =
      { result := .error error, context, events := context.boundEvents pairs } := by
  induction pairs generalizing context with
  | nil => cases refused
  | cons pair rest ih =>
      obtain ⟨name, value⟩ := pair
      rw [nested]
      cases found : context.current.vars.find? name.text with
      | some old =>
          have taken : (var name value).opened context = .error error := by
            simp only [opened, Context.withArguments, found] at refused ⊢
            exact refused
          rw [around_of_error taken, enter_events, opening]
          simp only [Context.boundEvents, found]
      | none =>
          have opens : (var name value).opened context =
              .ok (context.withVariable name.text value) := opened_var_ok_iff.mpr ⟨found, rfl⟩
          simp only [Context.withArguments, found] at refused
          have inside := ih refused
          -- The scopes inside have taken back what they bound, so nothing is missing here.
          rw [around_of_ok opens (congrArg Outcome.context inside), inside, enter_events, opening]
          simp only [Context.boundEvents, found, closing, List.append_nil, List.singleton_append]

theorem nested_boundAround {pairs : List (Name × Value)}
    (arrives : context.withArguments pairs = .ok inner) (work : Action α) :
    BoundAround (pairs.map Prod.fst) (context.boundEvents pairs) (work inner)
      (nested pairs work context) := by
  induction pairs generalizing context with
  | nil =>
      cases arrives
      exact
        { result := by
            change (work inner).result = (work inner).result <* .ok ()
            cases (work inner).result <;> rfl
          context := rfl
          events := ⟨[], by simp [Context.boundEvents, nested], by simp⟩ }
  | cons pair rest ih =>
      obtain ⟨name, value⟩ := pair
      cases found : context.current.vars.find? name.text with
      | some old => simp only [Context.withArguments, found, reduceCtorEq] at arrives
      | none =>
          simp only [Context.withArguments, found] at arrives
          have taken := (ih arrives).within (around_var_boundAround found value (nested rest work))
          simpa only [nested, Context.boundEvents, found, List.map_cons, List.singleton_append]
            using taken

/-- Parameters that are bound together agree with one scope inside the other for each of them: the
result and the context behind are the same, whatever the work does to the frames and to the
parameters, and whether it fails or not. Only reports of failed releases may differ. -/
theorem arguments_agree_with_nested {α : Type} {parameters : List Name} {values : List Value}
    (count : parameters.length = values.length) (work : Action α) (context : Context) :
    ((arguments parameters values).around work context).SameUpToWarnings
      (nested (parameters.zip values) work context) := by
  cases binds : context.withArguments (parameters.zip values) with
  | error error =>
      have refused : (arguments parameters values).opened context = .error error := by
        rw [opened, if_pos count, binds]
      rw [around_of_error refused, enter_events, opening, if_pos count, nested_of_refused binds]
      have same := (List.append_nil (context.boundEvents (parameters.zip values))).symm
      exact ⟨rfl, rfl, _, [], [], same, same, by simp, by simp⟩
  | ok inner =>
      have opens : (arguments parameters values).opened context = .ok inner :=
        opened_arguments_ok_iff.mpr ⟨count, binds⟩
      have names : (parameters.zip values).map Prod.fst = parameters :=
        List.map_fst_zip (Nat.le_of_eq count)
      have each := nested_boundAround binds work
      rw [names] at each
      exact (around_arguments_boundAround opens work).sameUpToWarnings each

end Scope

/-- The work leaves a frame of its own behind and fails, so neither parameter is found again: one
scope reports this once, two scopes twice. -/
theorem lost_parameters_are_reported_once_or_twice :
    let parameters : List Name := [.bare "a", .bare "b"]
    let values : List Value := [.ofNumber 1, .ofNumber 2]
    let together := (Scope.arguments parameters values).around Operations.pushAndFail.work {}
    let each := Scope.nested (parameters.zip values) Operations.pushAndFail.work {}
    parameters.length = values.length ∧ together.SameUpToWarnings each ∧
      together.result = .error ⟨.unknownVariable "x", Span.empty⟩ ∧
      together.context.frameDepth = 2 ∧
      together.events.length = 4 ∧ each.events.length = 5 := by
  intro parameters values together each
  have count : parameters.length = values.length := rfl
  have same := Scope.arguments_agree_with_nested count Operations.pushAndFail.work {}
  exact ⟨count, same, rfl, rfl, by decide +kernel, by decide +kernel⟩

end FrameLang
