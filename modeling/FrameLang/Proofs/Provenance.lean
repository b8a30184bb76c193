import FrameLang.Proofs.Agreement
import FrameLang.Proofs.Placement
import FrameLang.Proofs.ProgramState

/-!
Where values and errors come from. Nothing that evaluation hands around has a span of its own making:
a value has that of an expression of the program, and an error that of the name, the call or the
definition that went wrong. The rules keep this for everything that a context holds.
-/

set_option autoImplicit false

namespace FrameLang

/-!
## Results that stem from nodes
-/

/-- With a node there are all nodes below it. -/
def DownClosed (nodes : Set Node) : Prop :=
  ∀ parent ∈ nodes, ∀ child ∈ parent.children, child ∈ nodes

/-- The nodes of all declarations. -/
def nodesOf (declarations : List Declaration) : Set Node :=
  {node | ∃ declaration ∈ declarations, declaration.root.PartOf node}

theorem nodesOf_downClosed (declarations : List Declaration) : DownClosed (nodesOf declarations) := by
  intro parent member child below
  obtain ⟨declaration, listed, part⟩ := member
  exact ⟨declaration, listed, .child part below⟩

def Value.StemsFrom (nodes : Set Node) (value : Value) : Prop :=
  ∃ expr, Node.expr expr ∈ nodes ∧ value.span = expr.span

/-- The error is about a node, and has the span of the part of it that went wrong. -/
inductive Error.StemsFrom (nodes : Set Node) : Error → Prop where
  | unknownVariable {name} :
      .expr (.var name) ∈ nodes → StemsFrom nodes ⟨.unknownVariable name.text, name.span⟩
  | unknownFunction {name arguments span} :
      .expr (.call name arguments span) ∈ nodes →
      StemsFrom nodes ⟨.unknownFunction name.text arguments.length, name.span⟩
  | argumentCount {name arguments span called given expected} :
      .expr (.call name arguments span) ∈ nodes →
      StemsFrom nodes ⟨.argumentCount called given expected, span⟩
  | depthExceeded {name arguments span limit} :
      .expr (.call name arguments span) ∈ nodes → StemsFrom nodes ⟨.depthExceeded limit, span⟩
  | letTaken {name value body span} :
      .expr (.letIn name value body span) ∈ nodes →
      StemsFrom nodes ⟨.variableBound name.text, name.span⟩
  | parameterTaken {function : Function} {parameter} :
      .function function ∈ nodes → parameter ∈ function.parameters →
      StemsFrom nodes ⟨.variableBound parameter.text, parameter.span⟩
  | functionTaken {function : Function} :
      .function function ∈ nodes →
      StemsFrom nodes ⟨.functionDefined function.name.text function.arity, function.span⟩
  | lambdaDeclared {function : Function} :
      .function function ∈ nodes →
      StemsFrom nodes ⟨.lambdaAtTopLevel function.name.text, function.span⟩

/-- The result is as required, or an error that stems from the nodes. -/
def Stems {α : Type} (nodes : Set Node) (holds : α → Prop) : Except Error α → Prop
  | .ok value => holds value
  | .error error => error.StemsFrom nodes

/-- Whatever a look-up finds stems from the nodes. -/
structure Environment.DrawnFrom (nodes : Set Node) (environment : Environment) : Prop where
  values : ∀ name value, environment.value? name = some value → value.StemsFrom nodes
  functions : ∀ signature function, environment.function? signature = some function →
    Node.function function ∈ nodes

namespace Environment.DrawnFrom

variable {nodes : Set Node} {environment : Environment}

theorem withVariable (drawn : environment.DrawnFrom nodes) (name : String) {value : Value}
    (stems : value.StemsFrom nodes) : (environment.withVariable name value).DrawnFrom nodes where
  values := by
    intro other held found
    rw [value?_withVariable] at found
    split at found
    · cases found
      exact stems
    · exact drawn.values other held found
  functions := drawn.functions

theorem withFunction (drawn : environment.DrawnFrom nodes) {function : Function}
    (member : .function function ∈ nodes) :
    (environment.withFunction function).DrawnFrom nodes where
  values := drawn.values
  functions := by
    intro signature other found
    rw [function?_withFunction] at found
    split at found
    · cases found
      exact member
    · exact drawn.functions signature other found

theorem counted (drawn : environment.DrawnFrom nodes) : environment.counted.DrawnFrom nodes :=
  ⟨drawn.values, drawn.functions⟩

theorem pushed (drawn : environment.DrawnFrom nodes) : environment.pushed.DrawnFrom nodes :=
  ⟨drawn.values, drawn.functions⟩

theorem withParameters {function : Function} (member : .function function ∈ nodes)
    {pairs : List (Name × Value)}
    (each : ∀ pair ∈ pairs, pair.1 ∈ function.parameters ∧ pair.2.StemsFrom nodes)
    (drawn : environment.DrawnFrom nodes) :
    Stems nodes (DrawnFrom nodes) (environment.withParameters pairs) := by
  induction pairs generalizing environment with
  | nil => exact drawn
  | cons pair rest ih =>
      obtain ⟨name, value⟩ := pair
      obtain ⟨⟨parameter, stems⟩, others⟩ := List.forall_mem_cons.mp each
      unfold Environment.withParameters
      split
      · exact .parameterTaken member parameter
      · exact ih others (drawn.withVariable name.text stems)

theorem callee {name : Name} {arguments : List Expr} {span : Span}
    (call : .expr (.call name arguments span) ∈ nodes) {function : Function}
    (member : .function function ∈ nodes) {values : List Value}
    (stem : ∀ value ∈ values, value.StemsFrom nodes) (drawn : environment.DrawnFrom nodes) :
    Stems nodes (DrawnFrom nodes) (environment.callee function values span) := by
  have each : ∀ pair ∈ function.parameters.zip values,
      pair.1 ∈ function.parameters ∧ pair.2.StemsFrom nodes := by
    intro pair zipped
    obtain ⟨parameter, value⟩ := List.of_mem_zip (a := pair.1) (b := pair.2) zipped
    exact ⟨parameter, stem _ value⟩
  unfold Environment.callee
  split
  · exact .depthExceeded call
  split
  · exact drawn.counted.withParameters member each
  split
  · exact .depthExceeded call
  · exact drawn.counted.pushed.withParameters member each

end Environment.DrawnFrom

/-!
## Evaluation
-/

theorem Function.body_mem_children (function : Function) :
    .expr function.body ∈ (Node.function function).children := by
  obtain ⟨name, parameters, body, isLambda, span⟩ := function
  exact List.mem_append_right _ List.mem_cons_self

theorem DownClosed.arguments {nodes : Set Node} (closed : DownClosed nodes) {name : Name}
    {arguments : List Expr} {span : Span} (member : .expr (.call name arguments span) ∈ nodes) :
    ∀ argument ∈ arguments, .expr argument ∈ nodes := by
  intro argument listed
  exact closed _ member _ (.tail _ (List.mem_map_of_mem listed))

mutual

/-- One case for each rule: the subject of each premise is below that of the conclusion. -/
theorem Evaluates.stems {nodes : Set Node} (closed : DownClosed nodes) {environment : Environment}
    {expr : Expr} {result : Except Error Value} (rules : Evaluates environment expr result)
    (drawn : environment.DrawnFrom nodes) (member : .expr expr ∈ nodes) :
    Stems nodes (Value.StemsFrom nodes) result := by
  have below := closed _ member
  match rules with
  | .literal => exact ⟨_, member, rfl⟩
  | .var found => exact drawn.values _ _ found
  | .varUnknown _ => exact .unknownVariable member
  | .additive _ _ => exact ⟨_, member, rfl⟩
  | .additiveLeft onLeft => exact onLeft.stems closed drawn (below _ (.head _))
  | .additiveRight _ onRight => exact onRight.stems closed drawn (below _ (.tail _ (.head _)))
  | .letValue value => exact value.stems closed drawn (below _ (.tail _ (.head _)))
  | .letTaken _ _ => exact .letTaken member
  | .letBody value _ body =>
      have bound := value.stems closed drawn (below _ (.tail _ (.head _)))
      exact body.stems closed (drawn.withVariable _ bound) (below _ (.tail _ (.tail _ (.head _))))
  | .lambdaTaken _ => exact .functionTaken (below _ (.head _))
  | .lambdaUsage _ usage =>
      exact usage.stems closed (drawn.withFunction (below _ (.head _))) (below _ (.tail _ (.head _)))
  | .callUnknown _ => exact .unknownFunction member
  | .callArgument _ arguments =>
      exact arguments.stems closed drawn (closed.arguments member)
  | .callMismatch _ _ _ => exact .argumentCount member
  | .callRefused found arguments _ refused =>
      have values := arguments.stems closed drawn (closed.arguments member)
      have entry := drawn.callee member (drawn.functions _ _ found) values
      rw [refused] at entry
      exact entry
  | @Evaluates.callBody _ _ _ _ function _ _ _ found arguments _ entered body =>
      have values := arguments.stems closed drawn (closed.arguments member)
      -- The body is not below the call: it is below the function that the environment holds.
      have defined := drawn.functions _ _ found
      have entry := drawn.callee member defined values
      rw [entered] at entry
      exact body.stems closed entry (closed _ defined _ function.body_mem_children)
  | .ifCondition condition => exact condition.stems closed drawn (below _ (.head _))
  | .ifTrue _ branch => exact branch.stems closed drawn (below _ (.tail _ (.head _)))
  | .ifFalse _ branch => exact branch.stems closed drawn (below _ (.tail _ (.tail _ (.head _))))

theorem EvaluatesEach.stems {nodes : Set Node} (closed : DownClosed nodes)
    {environment : Environment} {arguments : List Expr} {result : Except Error (List Value)}
    (rules : EvaluatesEach environment arguments result) (drawn : environment.DrawnFrom nodes)
    (members : ∀ argument ∈ arguments, .expr argument ∈ nodes) :
    Stems nodes (fun values => ∀ value ∈ values, value.StemsFrom nodes) result := by
  match rules with
  | .nil => exact fun _ none => nomatch none
  | .cons first rest =>
      obtain ⟨head, tail⟩ := List.forall_mem_cons.mp members
      have value := first.stems closed drawn head
      have values := rest.stems closed drawn tail
      exact List.forall_mem_cons.mpr ⟨value, values⟩
  | .head first => exact first.stems closed drawn (members _ (.head _))
  | .tail _ rest => exact rest.stems closed drawn (List.forall_mem_cons.mp members).2

theorem Tests.stems {nodes : Set Node} (closed : DownClosed nodes) {environment : Environment}
    {condition : Condition} {result : Except Error Bool} (rules : Tests environment condition result)
    (drawn : environment.DrawnFrom nodes) (member : .condition condition ∈ nodes) :
    Stems nodes (fun _ => True) result := by
  have below := closed _ member
  match rules with
  | .truthy _ => exact trivial
  | .truthyOperand operand => exact operand.stems closed drawn (below _ (.head _))
  | .comparison _ _ => exact trivial
  | .comparisonLeft onLeft => exact onLeft.stems closed drawn (below _ (.head _))
  | .comparisonRight _ onRight => exact onRight.stems closed drawn (below _ (.tail _ (.head _)))

end

/-!
## Programs
-/

/-- What comes of a declaration stems from the nodes, and so does whatever is registered then. -/
theorem Declaration.process_stems {nodes : Set Node} (closed : DownClosed nodes)
    {declaration : Declaration} {context : Context} (member : declaration.root ∈ nodes)
    (drawn : context.environment.DrawnFrom nodes) :
    Stems nodes (fun value? => ∀ value ∈ value?, value.StemsFrom nodes)
        (declaration.process context).result ∧
      (declaration.process context).context.environment.DrawnFrom nodes := by
  cases declaration with
  | expression expr =>
      obtain ⟨answer, kept⟩ := process_expression context expr
      rw [answer, kept]
      have stems := (expr.evaluate_evaluates context).stems closed drawn member
      refine ⟨?_, drawn⟩
      cases result : (expr.evaluate context).result with
      | error error =>
          rw [result] at stems
          exact stems
      | ok value =>
          rw [result] at stems
          intro other same
          cases same
          exact stems
  | function definition =>
      obtain ⟨_, refused⟩ | ⟨_, _, refused⟩ | ⟨_, _, bound⟩ := process_function definition context
      · rw [refused]
        exact ⟨.lambdaDeclared member, drawn⟩
      · rw [refused]
        exact ⟨.functionTaken member, drawn⟩
      · rw [bound]
        constructor
        · intro value none
          cases none
        · rw [Context.environment_withFunction]
          exact drawn.withFunction member

theorem Context.answers_stem {nodes : Set Node} (closed : DownClosed nodes)
    {declarations : List Declaration} {context : Context}
    (members : ∀ declaration ∈ declarations, declaration.root ∈ nodes)
    (drawn : context.environment.DrawnFrom nodes) :
    ∀ answer ∈ context.answers declarations,
      Stems nodes (fun value? => ∀ value ∈ value?, value.StemsFrom nodes) answer := by
  -- Each declaration is processed in the context that those before it have left.
  induction declarations generalizing context with
  | nil => exact fun _ none => nomatch none
  | cons declaration rest ih =>
      obtain ⟨first, others⟩ := List.forall_mem_cons.mp members
      obtain ⟨answer, later⟩ := Declaration.process_stems closed first drawn
      exact List.forall_mem_cons.mpr ⟨answer, ih others later⟩

/-- Every answer of a program that starts afresh stems from its declarations. -/
theorem Program.drain_stems (config : Config) (declarations : List Declaration) :
    ∀ answer ∈ (Program.ofConfig config declarations).drain.result,
      Stems (nodesOf declarations)
        (fun value? => ∀ value ∈ value?, value.StemsFrom (nodesOf declarations)) answer := by
  have start := (Program.drain_underWay { config } [] declarations).1
  rw [← Program.ofConfig_eq_underWay] at start
  rw [start]
  apply Context.answers_stem (nodesOf_downClosed declarations)
  · intro declaration listed
    exact ⟨declaration, listed, .root⟩
  · constructor
    · intro name value found
      cases found
    · intro signature function found
      cases found

end FrameLang
