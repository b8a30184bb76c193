import FrameLang.Bindings
import FrameLang.Config
import FrameLang.Expr

/-!
The environment of an evaluation: a base frame that always exists, the frames of the active calls on
top of it, and the number of calls in progress. Names resolve from the topmost frame down to the
base, so a callee sees every binding of the callers that are still active.
-/

set_option autoImplicit false

namespace FrameLang

/-- One layer of name resolution. -/
structure Frame where
  vars : Bindings String Value := {}
  functions : Bindings Signature Function := {}

/-- `upper` holds the frames above the base, the topmost first. Lambda calls count in `callDepth`
though they have no frame. -/
structure Context where
  base : Frame := {}
  upper : List Frame := []
  callDepth : Nat := 0
  config : Config := {}

namespace Context

/-- The limit on the call depth, and also on the number of frames. -/
def limit (context : Context) : Nat := context.config.maxCallDepth.toNat

/-- The frames from the topmost one down to the base. -/
def frames (context : Context) : List Frame := context.upper ++ [context.base]

/-- The number of frames, the base included. -/
def frameDepth (context : Context) : Nat := context.upper.length + 1

/-- The topmost frame, the only one that operations write to. -/
def current (context : Context) : Frame := context.upper.headD context.base

/-- Changes the topmost frame and nothing else. -/
def mapCurrent (change : Frame → Frame) (context : Context) : Context :=
  match context.upper with
  | [] => { context with base := change context.base }
  | top :: lower => { context with upper := change top :: lower }

/-- The first frame, from the topmost one down, that has an answer. -/
def findInFrames? {α : Type} (context : Context) (find? : Frame → Option α) : Option α :=
  match context.upper.findSome? find? with
  | some found => some found
  | none => find? context.base

def findVariable? (context : Context) (name : String) : Option Value :=
  context.findInFrames? (fun frame => frame.vars.find? name)

def findFunction? (context : Context) (signature : Signature) : Option Function :=
  context.findInFrames? (fun frame => frame.functions.find? signature)

/-- The names bound in the topmost frame, in no particular order. -/
def currentVariables (context : Context) : List String := context.current.vars.keys

def currentFunctions (context : Context) : List Signature := context.current.functions.keys

/-- The largest height of a body that a call could reach. -/
def bodyHeight (context : Context) : Nat :=
  (context.frames.flatMap (fun frame => frame.functions.values.map Function.height)).foldl max 0

theorem frames_eq (context : Context) : context.frames = context.current :: context.frames.tail := by
  obtain ⟨base, upper, callDepth, config⟩ := context
  cases upper <;> rfl

/-- A look-up asks every frame in turn. -/
theorem findInFrames?_eq {α : Type} (context : Context) (find? : Frame → Option α) :
    context.findInFrames? find? = context.frames.findSome? find? := by
  simp only [findInFrames?, frames, List.findSome?_append]
  cases context.upper.findSome? find? <;> cases found : find? context.base <;> simp [found]

section MapCurrent

variable (change : Frame → Frame) (context : Context)

@[simp] theorem current_mapCurrent :
    (context.mapCurrent change).current = change context.current := by
  obtain ⟨base, upper, callDepth, config⟩ := context
  cases upper <;> rfl

@[simp] theorem frames_mapCurrent :
    (context.mapCurrent change).frames = change context.current :: context.frames.tail := by
  obtain ⟨base, upper, callDepth, config⟩ := context
  cases upper <;> rfl

@[simp] theorem callDepth_mapCurrent :
    (context.mapCurrent change).callDepth = context.callDepth := by
  obtain ⟨base, upper, callDepth, config⟩ := context
  cases upper <;> rfl

@[simp] theorem config_mapCurrent : (context.mapCurrent change).config = context.config := by
  obtain ⟨base, upper, callDepth, config⟩ := context
  cases upper <;> rfl

@[simp] theorem limit_mapCurrent : (context.mapCurrent change).limit = context.limit := by
  obtain ⟨base, upper, callDepth, config⟩ := context
  cases upper <;> rfl

@[simp] theorem frameDepth_mapCurrent :
    (context.mapCurrent change).frameDepth = context.frameDepth := by
  obtain ⟨base, upper, callDepth, config⟩ := context
  cases upper <;> rfl

/-- A second change that takes back the first restores the context. -/
theorem mapCurrent_mapCurrent_of_inverse (context : Context) (change undo : Frame → Frame)
    (inverse : undo (change context.current) = context.current) :
    (context.mapCurrent change).mapCurrent undo = context := by
  obtain ⟨base, upper, callDepth, config⟩ := context
  cases upper with
  | nil => exact congrArg (fun frame => Context.mk frame [] callDepth config) inverse
  | cons top lower =>
      exact congrArg (fun frame => Context.mk base (frame :: lower) callDepth config) inverse

theorem mapCurrent_eq_self {context : Context} {change : Frame → Frame}
    (same : change context.current = context.current) : context.mapCurrent change = context := by
  obtain ⟨base, upper, callDepth, config⟩ := context
  cases upper with
  | nil => exact congrArg (fun frame => Context.mk frame [] callDepth config) same
  | cons top lower =>
      exact congrArg (fun frame => Context.mk base (frame :: lower) callDepth config) same

end MapCurrent

end Context

end FrameLang
