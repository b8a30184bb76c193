import FrameLang.Proofs.Agreement
import Mathlib.Data.Set.Basic

/-!
What evaluation can see of a context. Two environments cannot be told apart if they give the same
values for some names, the same functions, and agree on what their topmost layers hold. Everything
that a rule does to an environment keeps this, as long as the names are those of the program.
-/

set_option autoImplicit false

namespace FrameLang

/-!
## The variable names of a tree
-/

mutual

/-- The names of the variables that the tree reads or binds, in the functions it defines as well. -/
def Expr.variableNames : Expr → List String
  | .literal _ => []
  | .var name => [name.text]
  | .additive _ left right _ => left.variableNames ++ right.variableNames
  | .letIn name value body _ => name.text :: (value.variableNames ++ body.variableNames)
  | .lambda function usage _ => function.variableNames ++ usage.variableNames
  | .call _ arguments _ => argumentsVariableNames arguments
  | .ifThenElse condition whenTrue whenFalse _ =>
    condition.variableNames ++ (whenTrue.variableNames ++ whenFalse.variableNames)

def Condition.variableNames : Condition → List String
  | .truthy operand _ => operand.variableNames
  | .comparison _ left right _ => left.variableNames ++ right.variableNames

def Function.variableNames : Function → List String
  | ⟨_, parameters, body, _, _⟩ => parameters.map Name.text ++ body.variableNames

def argumentsVariableNames : List Expr → List String
  | [] => []
  | argument :: rest => argument.variableNames ++ argumentsVariableNames rest

end

theorem Function.variableNames_eq (function : Function) :
    function.variableNames = function.parameters.map Name.text ++ function.body.variableNames := by
  obtain ⟨name, parameters, body, isLambda, span⟩ := function
  rfl

/-!
## Environments that cannot be told apart
-/

/-- Neither a look-up nor an attempt to bind tells the two apart, if it is for one of the names. All
names in functions that can be called are among them. -/
structure Environment.Indistinguishable (names : Set String) (first second : Environment) :
    Prop where
  limit : first.limit = second.limit
  calls : first.calls = second.calls
  depth : first.depth = second.depth
  values : ∀ name ∈ names, first.value? name = second.value? name
  bound : ∀ name ∈ names, (first.top.vars name).isSome = (second.top.vars name).isSome
  functions : ∀ signature, first.function? signature = second.function? signature
  defined : ∀ signature,
    (first.top.functions signature).isSome = (second.top.functions signature).isSome
  named : ∀ signature function, first.function? signature = some function →
    ∀ name ∈ function.variableNames, name ∈ names

theorem exists_of_isSome_eq {α : Type} {first second : Option α}
    (same : first.isSome = second.isSome) {held : α} (found : first = some held) :
    ∃ other, second = some other := by
  apply Option.isSome_iff_exists.mp
  rw [← same, found]
  rfl

theorem eq_none_of_isSome_eq {α : Type} {first second : Option α}
    (same : first.isSome = second.isSome) (missing : first = none) : second = none := by
  apply Option.isNone_iff_eq_none.mp
  rw [← Option.isSome_eq_false_iff, ← same, missing]
  rfl

namespace Environment.Indistinguishable

variable {names : Set String} {first second : Environment}

theorem withVariable (same : Indistinguishable names first second) (name : String) (value : Value) :
    Indistinguishable names (first.withVariable name value) (second.withVariable name value) where
  limit := same.limit
  calls := same.calls
  depth := same.depth
  values := by
    intro other member
    rw [value?_withVariable, value?_withVariable, same.values other member]
  bound := by
    intro other member
    unfold Environment.withVariable
    simp only [apply_ite Option.isSome, same.bound other member]
  functions := same.functions
  defined := same.defined
  named := same.named

theorem withFunction (same : Indistinguishable names first second) {function : Function}
    (named : ∀ name ∈ function.variableNames, name ∈ names) :
    Indistinguishable names (first.withFunction function) (second.withFunction function) where
  limit := same.limit
  calls := same.calls
  depth := same.depth
  values := same.values
  bound := same.bound
  functions := by
    intro signature
    rw [function?_withFunction, function?_withFunction, same.functions signature]
  defined := by
    intro signature
    unfold Environment.withFunction
    simp only [apply_ite Option.isSome, same.defined signature]
  named := by
    intro signature other found
    rw [function?_withFunction] at found
    split at found
    · cases found
      exact named
    · exact same.named signature other found

theorem counted (same : Indistinguishable names first second) :
    Indistinguishable names first.counted second.counted :=
  { same with calls := congrArg (· + 1) same.calls }

theorem pushed (same : Indistinguishable names first second) :
    Indistinguishable names first.pushed second.pushed :=
  { same with
    depth := congrArg (· + 1) same.depth
    bound := fun _ _ => rfl
    defined := fun _ => rfl }

/-- The same parameter is refused in both, or all are bound in both. -/
theorem withParameters {pairs : List (Name × Value)}
    (named : ∀ pair ∈ pairs, pair.1.text ∈ names) (same : Indistinguishable names first second) :
    (∃ error, first.withParameters pairs = .error error ∧
        second.withParameters pairs = .error error) ∨
      ∃ inner other, first.withParameters pairs = .ok inner ∧
        second.withParameters pairs = .ok other ∧ Indistinguishable names inner other := by
  induction pairs generalizing first second with
  | nil => exact .inr ⟨first, second, rfl, rfl, same⟩
  | cons pair rest ih =>
      obtain ⟨name, value⟩ := pair
      obtain ⟨member, others⟩ := List.forall_mem_cons.mp named
      have held := same.bound name.text member
      unfold Environment.withParameters
      cases here : first.top.vars name.text with
      | some old =>
          obtain ⟨other, there⟩ := exists_of_isSome_eq held here
          rw [there]
          exact .inl ⟨_, rfl, rfl⟩
      | none =>
          rw [eq_none_of_isSome_eq held here]
          exact ih others (same.withVariable name.text value)

theorem callee (same : Indistinguishable names first second) {function : Function}
    (named : ∀ name ∈ function.variableNames, name ∈ names) (values : List Value) (span : Span) :
    (∃ error, first.callee function values span = .error error ∧
        second.callee function values span = .error error) ∨
      ∃ inner other, first.callee function values span = .ok inner ∧
        second.callee function values span = .ok other ∧ Indistinguishable names inner other := by
  have parameters : ∀ pair ∈ function.parameters.zip values, pair.1.text ∈ names := by
    intro pair member
    apply named
    rw [function.variableNames_eq]
    have parameter := (List.of_mem_zip (a := pair.1) (b := pair.2) member).1
    exact List.mem_append_left _ (List.mem_map_of_mem parameter)
  unfold Environment.callee
  rw [same.limit, same.calls, same.depth]
  split
  · exact .inl ⟨_, rfl, rfl⟩
  split
  · exact same.counted.withParameters parameters
  split
  · exact .inl ⟨_, rfl, rfl⟩
  · exact same.counted.pushed.withParameters parameters

end Environment.Indistinguishable

/-!
## The rules in two environments
-/

open Environment (Indistinguishable)

mutual

/-- One case for each rule. A premise in another environment has one that cannot be told apart from
it, because everything that the rule adds is in both. -/
theorem Evaluates.indistinguishable {names : Set String} {first second : Environment} {expr : Expr}
    {result : Except Error Value} (rules : Evaluates first expr result)
    (same : Indistinguishable names first second)
    (named : ∀ name ∈ expr.variableNames, name ∈ names) : Evaluates second expr result := by
  match rules with
  | .literal => exact .literal
  | .var found => exact .var (same.values _ (named _ List.mem_cons_self) ▸ found)
  | .varUnknown missing => exact .varUnknown (same.values _ (named _ List.mem_cons_self) ▸ missing)
  | .additive onLeft onRight =>
      obtain ⟨left, right⟩ := List.forall_mem_append.mp named
      exact .additive (onLeft.indistinguishable same left) (onRight.indistinguishable same right)
  | .additiveLeft onLeft =>
      obtain ⟨left, _⟩ := List.forall_mem_append.mp named
      exact .additiveLeft (onLeft.indistinguishable same left)
  | .additiveRight onLeft onRight =>
      obtain ⟨left, right⟩ := List.forall_mem_append.mp named
      exact .additiveRight (onLeft.indistinguishable same left)
        (onRight.indistinguishable same right)
  | .letValue value =>
      obtain ⟨_, others⟩ := List.forall_mem_cons.mp named
      obtain ⟨inValue, _⟩ := List.forall_mem_append.mp others
      exact .letValue (value.indistinguishable same inValue)
  | .letTaken value taken =>
      obtain ⟨member, others⟩ := List.forall_mem_cons.mp named
      obtain ⟨inValue, _⟩ := List.forall_mem_append.mp others
      obtain ⟨other, holds⟩ := exists_of_isSome_eq (same.bound _ member) taken
      exact .letTaken (value.indistinguishable same inValue) holds
  | .letBody value fresh body =>
      obtain ⟨member, others⟩ := List.forall_mem_cons.mp named
      obtain ⟨inValue, inBody⟩ := List.forall_mem_append.mp others
      have missing := eq_none_of_isSome_eq (same.bound _ member) fresh
      exact .letBody (value.indistinguishable same inValue) missing
        (body.indistinguishable (same.withVariable _ _) inBody)
  | .lambdaTaken taken =>
      obtain ⟨other, holds⟩ := exists_of_isSome_eq (same.defined _) taken
      exact .lambdaTaken holds
  | .lambdaUsage fresh usage =>
      obtain ⟨inFunction, inUsage⟩ := List.forall_mem_append.mp named
      have missing := eq_none_of_isSome_eq (same.defined _) fresh
      exact .lambdaUsage missing (usage.indistinguishable (same.withFunction inFunction) inUsage)
  | .callUnknown missing => exact .callUnknown (same.functions _ ▸ missing)
  | .callArgument found arguments =>
      exact .callArgument (same.functions _ ▸ found) (arguments.indistinguishable same named)
  | .callMismatch found arguments different =>
      exact .callMismatch (same.functions _ ▸ found) (arguments.indistinguishable same named)
        different
  | .callRefused found arguments fits refused =>
      obtain ⟨error, here, there⟩ | ⟨inner, other, here, _⟩ :=
        same.callee (same.named _ _ found) _ _
      · cases refused.symm.trans here
        exact .callRefused (same.functions _ ▸ found) (arguments.indistinguishable same named) fits
          there
      · cases refused.symm.trans here
  | .callBody found arguments fits entered body =>
      obtain ⟨error, here, _⟩ | ⟨inner, other, here, there, inside⟩ :=
        same.callee (same.named _ _ found) _ _
      · cases entered.symm.trans here
      · cases entered.symm.trans here
        -- The names of the body do not occur in the call: they are those of a function it can find.
        have inFunction := same.named _ _ found
        rw [Function.variableNames_eq] at inFunction
        obtain ⟨_, inBody⟩ := List.forall_mem_append.mp inFunction
        exact .callBody (same.functions _ ▸ found) (arguments.indistinguishable same named) fits
          there (body.indistinguishable inside inBody)
  | .ifCondition condition =>
      obtain ⟨inCondition, _⟩ := List.forall_mem_append.mp named
      exact .ifCondition (condition.indistinguishable same inCondition)
  | .ifTrue condition branch =>
      obtain ⟨inCondition, others⟩ := List.forall_mem_append.mp named
      obtain ⟨inBranch, _⟩ := List.forall_mem_append.mp others
      exact .ifTrue (condition.indistinguishable same inCondition)
        (branch.indistinguishable same inBranch)
  | .ifFalse condition branch =>
      obtain ⟨inCondition, others⟩ := List.forall_mem_append.mp named
      obtain ⟨_, inBranch⟩ := List.forall_mem_append.mp others
      exact .ifFalse (condition.indistinguishable same inCondition)
        (branch.indistinguishable same inBranch)

theorem EvaluatesEach.indistinguishable {names : Set String} {first second : Environment}
    {arguments : List Expr} {result : Except Error (List Value)}
    (rules : EvaluatesEach first arguments result) (same : Indistinguishable names first second)
    (named : ∀ name ∈ argumentsVariableNames arguments, name ∈ names) :
    EvaluatesEach second arguments result := by
  match rules with
  | .nil => exact .nil
  | .cons head tail =>
      obtain ⟨inFirst, inRest⟩ := List.forall_mem_append.mp named
      exact .cons (head.indistinguishable same inFirst) (tail.indistinguishable same inRest)
  | .head head =>
      obtain ⟨inFirst, _⟩ := List.forall_mem_append.mp named
      exact .head (head.indistinguishable same inFirst)
  | .tail head tail =>
      obtain ⟨inFirst, inRest⟩ := List.forall_mem_append.mp named
      exact .tail (head.indistinguishable same inFirst) (tail.indistinguishable same inRest)

theorem Tests.indistinguishable {names : Set String} {first second : Environment}
    {condition : Condition} {result : Except Error Bool} (rules : Tests first condition result)
    (same : Indistinguishable names first second)
    (named : ∀ name ∈ condition.variableNames, name ∈ names) : Tests second condition result := by
  match rules with
  | .truthy operand => exact .truthy (operand.indistinguishable same named)
  | .truthyOperand operand => exact .truthyOperand (operand.indistinguishable same named)
  | .comparison onLeft onRight =>
      obtain ⟨left, right⟩ := List.forall_mem_append.mp named
      exact .comparison (onLeft.indistinguishable same left) (onRight.indistinguishable same right)
  | .comparisonLeft onLeft =>
      obtain ⟨left, _⟩ := List.forall_mem_append.mp named
      exact .comparisonLeft (onLeft.indistinguishable same left)
  | .comparisonRight onLeft onRight =>
      obtain ⟨left, right⟩ := List.forall_mem_append.mp named
      exact .comparisonRight (onLeft.indistinguishable same left)
        (onRight.indistinguishable same right)

end

/-!
## Contexts
-/

namespace Context

/-- The names of the variables in the expression and in the functions that a look-up finds. What occurs
only in functions that others hide does not count. -/
def namesSeen (context : Context) (expr : Expr) : Set String :=
  {name | name ∈ expr.variableNames ∨
    ∃ signature function, context.findFunction? signature = some function ∧
      name ∈ function.variableNames}

/-- The expression finds the same in both contexts: the same values for the names that matter and the
same functions, and in the current frames the same names taken. -/
structure SeenAlike (expr : Expr) (first second : Context) : Prop where
  limit : first.limit = second.limit
  callDepth : first.callDepth = second.callDepth
  frameDepth : first.frameDepth = second.frameDepth
  values : ∀ name ∈ first.namesSeen expr ∪ second.namesSeen expr,
    first.findVariable? name = second.findVariable? name
  bound : ∀ name ∈ first.namesSeen expr ∪ second.namesSeen expr,
    (first.current.vars.find? name).isSome = (second.current.vars.find? name).isSome
  functions : ∀ signature, first.findFunction? signature = second.findFunction? signature
  defined : ∀ signature,
    (first.current.functions.find? signature).isSome =
      (second.current.functions.find? signature).isSome

theorem SeenAlike.indistinguishable {expr : Expr} {first second : Context}
    (alike : SeenAlike expr first second) :
    Indistinguishable (first.namesSeen expr) first.environment second.environment where
  limit := alike.limit
  calls := alike.callDepth
  depth := by rw [environment_depth, environment_depth, alike.frameDepth]
  values := by
    intro name member
    rw [environment_value?, environment_value?]
    exact alike.values name (.inl member)
  bound := fun name member => alike.bound name (.inl member)
  functions := by
    intro signature
    rw [environment_function?, environment_function?, alike.functions signature]
  defined := alike.defined
  named := by
    intro signature function found name member
    rw [environment_function?] at found
    exact .inr ⟨signature, function, found, member⟩

/-- The contexts share the current frame and the number of frames, and the frames below show the same.
Which of these frames holds what is left open, and so is everything that is hidden or never named. -/
structure ShowsAlike (expr : Expr) (first second : Context) : Prop where
  limit : first.limit = second.limit
  callDepth : first.callDepth = second.callDepth
  frameDepth : first.frameDepth = second.frameDepth
  current : first.current = second.current
  values : ∀ name ∈ first.namesSeen expr ∪ second.namesSeen expr,
    first.current.vars.find? name = none →
    first.frames.tail.findSome? (fun frame => frame.vars.find? name) =
      second.frames.tail.findSome? (fun frame => frame.vars.find? name)
  functions : ∀ signature, first.current.functions.find? signature = none →
    first.frames.tail.findSome? (fun frame => frame.functions.find? signature) =
      second.frames.tail.findSome? (fun frame => frame.functions.find? signature)

theorem findInFrames?_eq_of_current {α : Type} {find? : Frame → Option α} {first second : Context}
    (current : first.current = second.current)
    (lower : find? first.current = none →
      first.frames.tail.findSome? find? = second.frames.tail.findSome? find?) :
    first.findInFrames? find? = second.findInFrames? find? := by
  rw [findInFrames?_eq, findInFrames?_eq, frames_eq first, frames_eq second, List.findSome?_cons,
    List.findSome?_cons, ← current]
  cases found : find? first.current with
  | some held => rfl
  | none => exact lower found

theorem ShowsAlike.seenAlike {expr : Expr} {first second : Context}
    (alike : ShowsAlike expr first second) : SeenAlike expr first second where
  limit := alike.limit
  callDepth := alike.callDepth
  frameDepth := alike.frameDepth
  values name member := findInFrames?_eq_of_current alike.current (alike.values name member)
  bound _ _ := by rw [alike.current]
  functions signature := findInFrames?_eq_of_current alike.current (alike.functions signature)
  defined _ := by rw [alike.current]

end Context

/-- An expression has one result in all contexts in which it finds the same. In particular nothing
depends on what lower frames hide, on how bindings are spread over them, or on variables that are
never named. -/
theorem evaluation_sees_what_is_visible (expr : Expr) (first second : Context) :
    (Context.SeenAlike expr first second →
      (expr.evaluate first).result = (expr.evaluate second).result) ∧
    (Context.ShowsAlike expr first second →
      (expr.evaluate first).result = (expr.evaluate second).result) := by
  have visible (alike : Context.SeenAlike expr first second) :
      (expr.evaluate first).result = (expr.evaluate second).result := by
    have rules := (expr.evaluate_evaluates first).indistinguishable alike.indistinguishable
      fun name member => .inl member
    exact (rules.result_eq rfl).symm
  exact ⟨visible, fun shows => visible shows.seenAlike⟩

/-- Three frames, each of which holds one variable at most. -/
def Context.sparse : Context :=
  { upper := [{ vars := ⟨[("x", .ofNumber 1)]⟩ }, { vars := ⟨[("y", .ofNumber 2)]⟩ }] }

/-- The same shows from the top, but `y` is bound further down, and there is more below. -/
def Context.crowded : Context :=
  { upper := [{ vars := ⟨[("x", .ofNumber 1)]⟩ }, { vars := ⟨[("x", .ofNumber 5)]⟩ }]
    base := { vars := ⟨[("y", .ofNumber 2), ("z", .ofNumber 7)]⟩ } }

theorem sum_of_what_shows :
    let sum : Expr := .additive .add (.var (.bare "x")) (.var (.bare "y")) Span.empty
    Context.SeenAlike sum Context.sparse Context.crowded ∧
      Context.ShowsAlike sum Context.sparse Context.crowded ∧
      (sum.evaluate Context.sparse).result = (sum.evaluate Context.crowded).result := by
  intro sum
  have shows : Context.ShowsAlike sum Context.sparse Context.crowded := by
    refine ⟨rfl, rfl, rfl, rfl, ?_, fun _ _ => rfl⟩
    intro name member free
    have named : name ∈ sum.variableNames := by
      rcases member with (listed | ⟨_, _, none, _⟩) | (listed | ⟨_, _, none, _⟩)
      · exact listed
      · cases none
      · exact listed
      · cases none
    cases named with
    | head => cases free
    | tail _ second =>
        cases List.mem_singleton.mp second
        rfl
  have same := (evaluation_sees_what_is_visible sum Context.sparse Context.crowded).1
    shows.seenAlike
  exact ⟨shows.seenAlike, shows, same⟩

end FrameLang
