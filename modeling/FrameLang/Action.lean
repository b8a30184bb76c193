import FrameLang.Context
import FrameLang.Event

/-!
Actions on a context. An action always leaves a context behind, also when it fails, and reports what
happened on the way.
-/

set_option autoImplicit false

namespace FrameLang

/-- How an action ended: its result, the context it left and the events in the order they
happened. -/
structure Outcome (α : Type) where
  result : Except Error α
  context : Context
  events : List Event := []

/-- The outcome seen from an earlier moment, from which on `earlier` happened too. -/
def Outcome.after {α : Type} (outcome : Outcome α) (earlier : List Event) : Outcome α :=
  { outcome with events := earlier ++ outcome.events }

def Action (α : Type) : Type := Context → Outcome α

namespace Action

variable {α β : Type}

@[always_inline, inline]
def done (value : α) : Action α := fun context => { result := .ok value, context }

@[always_inline, inline]
def fail (error : Error) : Action α := fun context => { result := .error error, context }

/-- The second action runs in the context that the first one left, unless the first one failed. -/
@[always_inline, inline]
def andThen (first : Action α) (next : α → Action β) : Action β := fun context =>
  let outcome := first context
  match outcome.result with
  | .ok value => (next value outcome.context).after outcome.events
  | .error error => { result := .error error, context := outcome.context, events := outcome.events }

instance : Monad Action where
  pure := done
  bind := andThen

def current : Action Context := fun context => { result := .ok context, context }

def emit (event : Event) : Action Unit := fun context =>
  { result := .ok (), context, events := [event] }

def modify (change : Context → Context) : Action Unit := fun context =>
  { result := .ok (), context := change context }

def ofExcept : Except Error α → Action α
  | .ok value => done value
  | .error error => fail error

/-- Runs an action and hands on its result, failure included. -/
@[always_inline, inline]
def attempt (action : Action α) : Action (Except Error α) := fun context =>
  let outcome := action context
  { result := .ok outcome.result, context := outcome.context, events := outcome.events }

/-- Joins the result of some work with the result of releasing what the work used. The first
failure is returned; a second one is only reported. -/
def release (result : Except Error α) (released : Except Error β) : Action α :=
  match result, released with
  | .ok value, .ok _ => done value
  | .ok _, .error error => fail error
  | .error error, .ok _ => fail error
  | .error error, .error secondary => do
    emit (.releaseFailed error secondary)
    fail error

@[simp] theorem pure_apply (value : α) (context : Context) :
    (pure value : Action α) context = { result := .ok value, context } := rfl

theorem ofExcept_result (result : Except Error α) (context : Context) :
    (ofExcept result context).result = result := by
  cases result <;> rfl

theorem bind_of_ok {first : Action α} {next : α → Action β} {context : Context} {value : α}
    (succeeded : (first context).result = .ok value) :
    (first >>= next) context =
      (next value (first context).context).after (first context).events := by
  change (first.andThen next) context = _
  simp only [andThen, succeeded]

theorem bind_of_error {first : Action α} {next : α → Action β} {context : Context} {error : Error}
    (failed : (first context).result = .error error) :
    (first >>= next) context =
      { result := .error error, context := (first context).context,
        events := (first context).events } := by
  change (first.andThen next) context = _
  simp only [andThen, failed]

/-- What follows an attempt always runs, in the context that the attempted action left. -/
theorem attempt_bind (action : Action α) (next : Except Error α → Action β) (context : Context) :
    (attempt action >>= next) context =
      (next (action context).result (action context).context).after (action context).events := rfl

/-- Nothing is reported when at most one of the two failed. -/
@[simp] theorem release_ok (result : Except Error α) (value : β) :
    release result (.ok value) = ofExcept result := by
  cases result <;> rfl

end Action

end FrameLang
