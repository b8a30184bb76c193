import FrameLang.Proofs.ScopeResults
import Mathlib.Data.List.Induction
import Mathlib.Data.List.Nodup

/-!
A row of parameters in the topmost frame. It is bound as a whole or not at all: the first parameter
whose name is taken when its turn comes makes the scope fail, with nothing left bound. Behind the work
every parameter is taken back, whatever the work did to some of them. As the newest is taken back
first, the rightmost one that is missing is the one that is reported.
-/

set_option autoImplicit false

namespace FrameLang

namespace Context

variable {context : Context}

/-!
## Names of the topmost frame
-/

theorem mem_currentVariables_iff {name : String} :
    name ∈ context.currentVariables ↔ ∃ value, context.current.vars.find? name = some value := by
  cases found : context.current.vars.find? name with
  | none =>
      simp only [reduceCtorEq, exists_false, iff_false]
      exact Bindings.find?_eq_none_iff.mp found
  | some value =>
      simp only [Option.some.injEq, exists_eq', iff_true]
      have entry := Bindings.mem_entries_of_find? found
      exact List.mem_map.mpr ⟨_, entry, rfl⟩

theorem not_mem_currentVariables_iff {name : String} :
    name ∉ context.currentVariables ↔ context.current.vars.find? name = none :=
  Bindings.find?_eq_none_iff.symm

/-- By the time the parameter is bound its name is taken, in the topmost frame or by a parameter
before it. -/
def Taken (context : Context) (earlier : List Name) (parameter : Name) : Prop :=
  parameter.text ∈ context.currentVariables ∨ parameter.text ∈ earlier.map Name.text

/-- No parameter of the row is taken when its turn comes. -/
def Free (context : Context) (parameters : List Name) : Prop :=
  ∀ earlier parameter, earlier ++ [parameter] <+: parameters → ¬ context.Taken earlier parameter

theorem free_concat_iff {earlier : List Name} {last : Name} :
    context.Free (earlier ++ [last]) ↔ context.Free earlier ∧ ¬ context.Taken earlier last := by
  simp only [Free, List.prefix_concat_iff, List.append_singleton_inj]
  grind

theorem free_iff {parameters : List Name} :
    context.Free parameters ↔
      (parameters.map Name.text).Nodup ∧
        ∀ parameter ∈ parameters, parameter.text ∉ context.currentVariables := by
  induction parameters using List.reverseRecOn with
  | nil => simp [Free]
  | append_singleton earlier last ih =>
      simp only [free_concat_iff, ih, Taken, List.map_append, List.map_cons, List.map_nil,
        List.nodup_append, List.mem_append, List.mem_singleton]
      grind

theorem exists_first_taken {parameters : List Name} (notFree : ¬ context.Free parameters) :
    ∃ earlier parameter later, parameters = earlier ++ parameter :: later ∧
      context.Free earlier ∧ context.Taken earlier parameter := by
  induction parameters using List.reverseRecOn with
  | nil => exact absurd (by simp [Free]) notFree
  | append_singleton earlier last ih =>
      by_cases free : context.Free earlier
      · have taken : context.Taken earlier last := by
          by_contra notTaken
          exact notFree (free_concat_iff.mpr ⟨free, notTaken⟩)
        exact ⟨earlier, last, [], rfl, free, taken⟩
      · obtain ⟨first, parameter, later, split, found⟩ := ih free
        exact ⟨first, parameter, later ++ [last], by simp [split], found⟩

/-- The contexts agree on everything but the variables of the given names in the topmost frame. -/
structure SameBeside (names : List Name) (context other : Context) : Prop where
  config : other.config = context.config
  callDepth : other.callDepth = context.callDepth
  lower : other.frames.tail = context.frames.tail
  functions : other.current.functions = context.current.functions
  vars : ∀ name, name ∉ names.map Name.text →
    other.current.vars.find? name = context.current.vars.find? name

namespace SameBeside

theorem refl (context : Context) : context.SameBeside [] context :=
  ⟨rfl, rfl, rfl, rfl, fun _ _ => rfl⟩

theorem append {first second : List Name} {middle last : Context}
    (before : context.SameBeside first middle) (behind : middle.SameBeside second last) :
    context.SameBeside (first ++ second) last where
  config := behind.config.trans before.config
  callDepth := behind.callDepth.trans before.callDepth
  lower := behind.lower.trans before.lower
  functions := behind.functions.trans before.functions
  vars := by
    intro name other
    simp only [List.map_append, List.mem_append, not_or] at other
    exact (behind.vars name other.2).trans (before.vars name other.1)

theorem mapVariables {names : List Name} (change : Bindings String Value → Bindings String Value)
    (kept : ∀ name, name ∉ names.map Name.text →
      (change context.current.vars).find? name = context.current.vars.find? name) :
    context.SameBeside names
      (context.mapCurrent fun frame => { frame with vars := change frame.vars }) where
  config := config_mapCurrent ..
  callDepth := callDepth_mapCurrent ..
  lower := by simp
  functions := by simp
  vars := by simpa using kept

end SameBeside

/-!
## Binding
-/

/-- All parameters are bound to their values. -/
def holding (context : Context) (pairs : List (Name × Value)) : Context :=
  pairs.foldl (fun context pair => context.withVariable pair.1.text pair.2) context

@[simp] theorem holding_nil : context.holding [] = context := rfl

@[simp] theorem holding_cons (pair : Name × Value) (rest : List (Name × Value)) :
    context.holding (pair :: rest) = (context.withVariable pair.1.text pair.2).holding rest := rfl

@[simp] theorem currentVariables_withVariable (name : String) (value : Value) :
    (context.withVariable name value).currentVariables = name :: context.currentVariables := by
  simp [currentVariables, withVariable, Bindings.keys, Bindings.insert]

theorem find?_withVariable (name other : String) (value : Value) :
    (context.withVariable name value).current.vars.find? other =
      if other = name then some value else context.current.vars.find? other := by
  simp [withVariable, Bindings.find?_insert]

theorem currentVariables_holding (pairs : List (Name × Value)) :
    (context.holding pairs).currentVariables =
      (pairs.map fun pair => pair.1.text).reverse ++ context.currentVariables := by
  induction pairs generalizing context with
  | nil => rfl
  | cons pair rest ih => simp [ih]

theorem sameBeside_holding (pairs : List (Name × Value)) :
    context.SameBeside (pairs.map Prod.fst) (context.holding pairs) := by
  induction pairs generalizing context with
  | nil => exact .refl context
  | cons pair rest ih =>
      have first : context.SameBeside [pair.1] (context.withVariable pair.1.text pair.2) := by
        refine .mapVariables (·.insert pair.1.text pair.2) fun name other => ?_
        simp only [List.map_cons, List.map_nil, List.mem_singleton] at other
        simp [Bindings.find?_insert, other]
      exact first.append ih

theorem find?_holding {pairs : List (Name × Value)}
    (distinct : (pairs.map fun pair => pair.1.text).Nodup) {name : Name} {value : Value}
    (member : (name, value) ∈ pairs) :
    (context.holding pairs).current.vars.find? name.text = some value := by
  induction pairs generalizing context with
  | nil => cases member
  | cons pair rest ih =>
      simp only [List.map_cons, List.nodup_cons] at distinct
      rcases List.mem_cons.mp member with same | later
      · subst same
        let bound := context.withVariable name.text value
        have beside : bound.SameBeside (rest.map Prod.fst) (bound.holding rest) :=
          sameBeside_holding rest
        have stays := beside.vars name.text (by simpa [Function.comp_def] using distinct.1)
        simp [holding_cons, bound, stays, find?_withVariable]
      · exact ih distinct.2 later

theorem withArguments_append (first second : List (Name × Value)) :
    context.withArguments (first ++ second) =
      context.withArguments first >>= fun inner => inner.withArguments second := by
  induction first generalizing context with
  | nil => rfl
  | cons pair rest ih =>
      simp only [List.cons_append, withArguments]
      split
      next => rfl
      next => exact ih

theorem withArguments_of_free {pairs : List (Name × Value)}
    (free : context.Free (pairs.map Prod.fst)) :
    context.withArguments pairs = .ok (context.holding pairs) := by
  obtain ⟨distinct, unbound⟩ := free_iff.mp free
  clear free
  induction pairs generalizing context with
  | nil => rfl
  | cons pair rest ih =>
      simp only [List.map_cons, List.nodup_cons, List.mem_cons, forall_eq_or_imp] at distinct unbound
      simp only [withArguments, not_mem_currentVariables_iff.mp unbound.1, holding_cons]
      refine ih distinct.2 ?_
      intro parameter member
      have different : parameter.text ≠ pair.1.text := by
        intro same
        exact distinct.1 (same ▸ List.mem_map_of_mem member)
      simpa [different] using unbound.2 parameter member

theorem withArguments_of_taken {first rest : List (Name × Value)} {parameter : Name} {value : Value}
    (free : context.Free (first.map Prod.fst)) (taken : context.Taken (first.map Prod.fst) parameter) :
    context.withArguments (first ++ (parameter, value) :: rest) =
      .error ⟨.variableBound parameter.text, parameter.span⟩ := by
  have bound : parameter.text ∈ (context.holding first).currentVariables := by
    rw [currentVariables_holding, List.mem_append, List.mem_reverse]
    simpa [Taken, Function.comp_def] using taken.symm
  obtain ⟨old, found⟩ := mem_currentVariables_iff.mp bound
  rw [withArguments_append, withArguments_of_free free, except_ok_bind, withArguments, found]

/-!
## Unbinding
-/

theorem unbindVariable_context (name : Name) :
    (unbindVariable name context).context = context.mapCurrent fun frame =>
      { frame with vars := frame.vars.erase name.text } := by
  cases found : context.current.vars.find? name.text with
  | some value => simp only [unbindVariable, found]
  | none =>
      simp only [unbindVariable, found, Action.fail]
      exact (mapCurrent_eq_self (by simp only [Bindings.erase_of_absent found])).symm

theorem find?_unbindVariable (name : Name) (other : String) :
    (unbindVariable name context).context.current.vars.find? other =
      if other = name.text then none else context.current.vars.find? other := by
  simp [unbindVariable_context, Bindings.find?_erase]

theorem sameBeside_unbindEach (names : List Name) :
    context.SameBeside names (unbindEach names context).context := by
  induction names generalizing context with
  | nil => exact .refl context
  | cons name rest ih =>
      have first : context.SameBeside [name] (unbindVariable name context).context := by
        rw [unbindVariable_context]
        refine .mapVariables (·.erase name.text) fun other beside => ?_
        simp only [List.map_cons, List.map_nil, List.mem_singleton] at beside
        simp [Bindings.find?_erase, beside]
      rw [unbindEach_cons_context]
      exact first.append ih

/-- All the names are gone, whether they were bound or not. -/
theorem find?_unbindEach (names : List Name) (other : String) :
    (unbindEach names context).context.current.vars.find? other =
      if other ∈ names.map Name.text then none else context.current.vars.find? other := by
  induction names generalizing context with
  | nil => simp [unbindEach, Action.done]
  | cons name rest ih =>
      simp only [unbindEach_cons_context, ih, find?_unbindVariable, List.map_cons, List.mem_cons]
      by_cases later : other ∈ rest.map Name.text <;> simp [later]

theorem unbindEach_cons_result (name : Name) (rest : List Name) :
    (unbindEach (name :: rest) context).result =
      (unbindVariable name context).result >>= fun _ =>
        (unbindEach rest (unbindVariable name context).context).result := by
  simp only [unbindEach, Action.attempt_bind, Outcome.after]
  cases (unbindVariable name context).result with
  | ok value => exact Action.ofExcept_result ..
  | error error => rfl

/-- The first failure of either row is the one that is returned. -/
theorem unbindEach_append_result (context : Context) (first second : List Name) :
    (unbindEach (first ++ second) context).result =
      (unbindEach first context).result <*
        (unbindEach second (unbindEach first context).context).result := by
  induction first generalizing context with
  | nil =>
      change (unbindEach second context).result = .ok () <* (unbindEach second context).result
      cases (unbindEach second context).result <;> rfl
  | cons name rest ih =>
      simp only [List.cons_append, unbindEach_cons_result, unbindEach_cons_context, ih]
      cases (unbindVariable name context).result <;> rfl

/-- As long as all names are bound, none of them is reported. -/
theorem unbindEach_of_bound {names : List Name} (distinct : (names.map Name.text).Nodup)
    (bound : ∀ name ∈ names, name.text ∈ context.currentVariables) :
    (unbindEach names context).result = .ok () := by
  induction names generalizing context with
  | nil => rfl
  | cons name others ih =>
      simp only [List.map_cons, List.nodup_cons, List.mem_cons, forall_eq_or_imp] at distinct bound
      obtain ⟨value, found⟩ := mem_currentVariables_iff.mp bound.1
      have unbound : (unbindVariable name context).result = .ok value := by
        simp only [unbindVariable, found]
      rw [unbindEach_cons_result, unbound, except_ok_bind]
      refine ih distinct.2 fun other member => ?_
      have different : other.text ≠ name.text := by
        intro same
        exact distinct.1 (same ▸ List.mem_map_of_mem member)
      rw [mem_currentVariables_iff, find?_unbindVariable, if_neg different, ← mem_currentVariables_iff]
      exact bound.2 other member

theorem unbindEach_of_missing {before behind : List Name} {name : Name}
    (distinct : (before.map Name.text).Nodup)
    (bound : ∀ other ∈ before, other.text ∈ context.currentVariables)
    (missing : name.text ∉ context.currentVariables) :
    (unbindEach (before ++ name :: behind) context).result =
      .error ⟨.variableNotBound name.text, name.span⟩ := by
  have still : (unbindEach before context).context.current.vars.find? name.text = none := by
    rw [find?_unbindEach, not_mem_currentVariables_iff.mp missing, ite_self]
  have refused : (unbindVariable name (unbindEach before context).context).result =
      .error ⟨.variableNotBound name.text, name.span⟩ := by
    simp only [unbindVariable, still, Action.fail]
  rw [unbindEach_append_result, unbindEach_of_bound distinct bound, unbindEach_cons_result, refused]
  rfl

end Context

/-!
## The scope
-/

open Context

/-- What becomes of the outcome of some work in which the parameters were bound. -/
structure TakesBack {α : Type} (parameters : List Name) (worked outcome : Outcome α) : Prop where
  beside : worked.context.SameBeside parameters outcome.context
  gone : ∀ parameter ∈ parameters, parameter.text ∉ outcome.context.currentVariables
  failed : ∀ error, worked.result = .error error → outcome.result = .error error
  complete : ∀ value, worked.result = .ok value →
    (∀ parameter ∈ parameters, parameter.text ∈ worked.context.currentVariables) →
    outcome.result = .ok value
  missing : ∀ value, worked.result = .ok value →
    ∀ before parameter behind, parameters = before ++ parameter :: behind →
      parameter.text ∉ worked.context.currentVariables →
      (∀ other ∈ behind, other.text ∈ worked.context.currentVariables) →
      outcome.result = .error ⟨.variableNotBound parameter.text, parameter.span⟩

theorem takesBack_of_unbindEach {α : Type} {parameters : List Name} {worked outcome : Outcome α}
    (distinct : (parameters.map Name.text).Nodup)
    (left : outcome.context = (unbindEach parameters.reverse worked.context).context)
    (joined : outcome.result =
      worked.result <* (unbindEach parameters.reverse worked.context).result) :
    TakesBack parameters worked outcome where
  beside := by
    have beside : worked.context.SameBeside parameters.reverse outcome.context :=
      left ▸ sameBeside_unbindEach parameters.reverse
    exact { beside with vars := by simpa using beside.vars }
  gone := by
    intro parameter member
    have listed : parameter.text ∈ parameters.reverse.map Name.text :=
      List.mem_map_of_mem (List.mem_reverse.mpr member)
    rw [left, not_mem_currentVariables_iff, find?_unbindEach, if_pos listed]
  failed := by
    intro error failed
    rw [joined, failed]
    rfl
  complete := by
    intro value succeeded bound
    have distinctReverse : (parameters.reverse.map Name.text).Nodup := by
      simpa [List.nodup_reverse] using distinct
    have unbound := unbindEach_of_bound distinctReverse fun name member =>
      bound name (List.mem_reverse.mp member)
    rw [joined, succeeded, unbound]
    rfl
  missing := by
    intro value succeeded before parameter behind split missing bound
    have distinctBehind : (behind.reverse.map Name.text).Nodup := by
      simp only [split, List.map_append, List.map_cons, List.nodup_append, List.nodup_cons]
        at distinct
      simpa [List.nodup_reverse] using distinct.2.1.2
    have reversed : parameters.reverse = behind.reverse ++ parameter :: before.reverse := by
      simp [split]
    have boundBehind : ∀ other ∈ behind.reverse, other.text ∈ worked.context.currentVariables :=
      fun other member => bound other (List.mem_reverse.mp member)
    rw [joined, succeeded, reversed, unbindEach_of_missing distinctBehind boundBehind missing]
    rfl

namespace Scope

section Arguments

variable {α : Type} {context : Context} {parameters : List Name} {values : List Value}

theorem arguments_enter_of_free (count : parameters.length = values.length)
    (free : context.Free parameters) :
    ((arguments parameters values).enter context).result = .ok () ∧
      ((arguments parameters values).enter context).context =
        context.holding (parameters.zip values) := by
  have names : (parameters.zip values).map Prod.fst = parameters :=
    List.map_fst_zip (Nat.le_of_eq count)
  have opens : (arguments parameters values).opened context =
      .ok (context.holding (parameters.zip values)) :=
    opened_arguments_ok_iff.mpr ⟨count, withArguments_of_free (names.symm ▸ free)⟩
  obtain ⟨entered, arrived, _⟩ := enter_of_ok opens
  exact ⟨entered, arrived⟩

theorem arguments_opened_of_taken {earlier later : List Name} {parameter : Name}
    (count : parameters.length = values.length) (split : parameters = earlier ++ parameter :: later)
    (free : context.Free earlier) (taken : context.Taken earlier parameter) :
    (arguments parameters values).opened context =
      .error ⟨.variableBound parameter.text, parameter.span⟩ := by
  have names : (parameters.zip values).map Prod.fst = earlier ++ parameter :: later :=
    (List.map_fst_zip (Nat.le_of_eq count)).trans split
  obtain ⟨first, others, pairs, rfl, remaining⟩ := List.map_eq_append_iff.mp names
  obtain ⟨pair, rest, rfl, rfl, -⟩ := List.map_eq_cons_iff.mp remaining
  rw [opened, if_pos count, pairs]
  exact withArguments_of_taken free taken

theorem around_arguments_takesBack (count : parameters.length = values.length)
    (free : context.Free parameters) (work : Action α) :
    TakesBack parameters (work (context.holding (parameters.zip values)))
      ((arguments parameters values).around work context) := by
  obtain ⟨entered, arrived⟩ := arguments_enter_of_free count free
  have left := around_context entered work
  have joined := around_result_of_balanced entered work trivial
  rw [arrived] at left joined
  exact takesBack_of_unbindEach (free_iff.mp free).1 left joined

end Arguments

/-- If the name of a parameter is taken when its turn comes, the first such parameter is reported, the
work is not done and nothing is changed. Otherwise the work finds all parameters bound to their
values, and behind it none of them is bound and everything else is as the work left it. Behind work
that succeeded the rightmost parameter that had gone missing is reported. Nothing is assumed about
the work. -/
theorem arguments_bound_and_taken_back {α : Type} {parameters : List Name} {values : List Value}
    (count : parameters.length = values.length) (work : Action α) (context : Context) :
    let scope := Scope.arguments parameters values
    let outcome := scope.around work context
    (¬ context.Free parameters →
      ∃ earlier parameter later, parameters = earlier ++ parameter :: later ∧
        context.Free earlier ∧ context.Taken earlier parameter ∧
        outcome.result = .error ⟨.variableBound parameter.text, parameter.span⟩ ∧
        outcome.context = context ∧ ∀ other : Action α, scope.around other context = outcome) ∧
    (context.Free parameters →
      ∃ inner, (scope.enter context).result = .ok () ∧ (scope.enter context).context = inner ∧
        context.SameBeside parameters inner ∧
        (∀ name value, (name, value) ∈ parameters.zip values →
          inner.current.vars.find? name.text = some value) ∧
        TakesBack parameters (work inner) outcome) := by
  intro scope outcome
  constructor
  · intro notFree
    obtain ⟨earlier, parameter, later, split, free, taken⟩ := exists_first_taken notFree
    have refused := arguments_opened_of_taken count split free taken
    have ended (other : Action α) := around_of_error refused other
    refine ⟨earlier, parameter, later, split, free, taken, ?_, ?_, ?_⟩
    · exact congrArg Outcome.result (ended work)
    · exact congrArg Outcome.context (ended work)
    · exact fun other => (ended other).trans (ended work).symm
  · intro free
    obtain ⟨entered, arrived⟩ := arguments_enter_of_free count free
    have names : (parameters.zip values).map Prod.fst = parameters :=
      List.map_fst_zip (Nat.le_of_eq count)
    have distinct : ((parameters.zip values).map fun pair => pair.1.text).Nodup := by
      have texts := (free_iff.mp free).1
      rw [← names, List.map_map] at texts
      exact texts
    refine ⟨_, entered, arrived, ?_, ?_, around_arguments_takesBack count free work⟩
    · have beside : context.SameBeside ((parameters.zip values).map Prod.fst)
          (context.holding (parameters.zip values)) := sameBeside_holding _
      rwa [names] at beside
    · exact fun name value member => find?_holding distinct member

end Scope

/-- Takes back the first two of three parameters. -/
def Operations.unbindTwo : Operations :=
  .next (.unbindVariable (.bare "a")) false (.next (.unbindVariable (.bare "b")) false .done)

theorem rightmost_missing_parameter_is_reported :
    let parameters : List Name := [.bare "a", .bare "b", .bare "c"]
    let values : List Value := [.ofNumber 1, .ofNumber 2, .ofNumber 3]
    let outcome := (Scope.arguments parameters values).around Operations.unbindTwo.work {}
    parameters.length = values.length ∧ ({} : Context).Free parameters ∧
      outcome.result = .error ⟨.variableNotBound "b", Span.empty⟩ ∧
      ∀ parameter ∈ parameters, parameter.text ∉ outcome.context.currentVariables := by
  intro parameters values outcome
  have count : parameters.length = values.length := rfl
  have free : ({} : Context).Free parameters := Context.free_iff.mpr (by decide)
  obtain ⟨inner, entered, arrived, _, _, back⟩ :=
    (Scope.arguments_bound_and_taken_back count Operations.unbindTwo.work {}).2 free
  subst arrived
  have reported := back.missing () rfl [.bare "a"] (.bare "b") [.bare "c"] rfl
  exact ⟨count, free, reported (by decide) (by decide), back.gone⟩

end FrameLang
