import Reconciler.Reconcile.Event

set_option autoImplicit false

namespace Reconciler

structure Moment (σ : Type) where
  event : Event
  before : σ
  after : σ

structure Ran (σ α : Type) where
  value : α
  state : σ
  trace : List (Moment σ)

namespace Ran

variable {σ α : Type}

def events (ran : Ran σ α) : List Event :=
  ran.trace.map (·.event)

end Ran

def Run (σ α : Type) : Type := σ → Ran σ α

namespace Run

variable {σ α β : Type}

def pure (value : α) : Run σ α := fun state => ⟨value, state, []⟩

def bind (run : Run σ α) (next : α → Run σ β) : Run σ β := fun state =>
  let first := run state
  let second := next first.value first.state
  ⟨second.value, second.state, first.trace ++ second.trace⟩

instance : Monad (Run σ) where
  pure := pure
  bind := bind

theorem pure_apply (value : α) (state : σ) : (Pure.pure value : Run σ α) state = ⟨value, state, []⟩ := rfl

theorem bind_apply (run : Run σ α) (next : α → Run σ β) (state : σ) :
    (run >>= next) state =
      ⟨(next (run state).value (run state).state).value, (next (run state).value (run state).state).state,
        (run state).trace ++ (next (run state).value (run state).state).trace⟩ := rfl

theorem map_apply (f : α → β) (run : Run σ α) (state : σ) :
    (f <$> run) state = ⟨f (run state).value, (run state).state, (run state).trace⟩ := by
  show (⟨_, _, _⟩ : Ran σ β) = _
  simp [Function.comp, pure]

instance : LawfulMonad (Run σ) :=
  LawfulMonad.mk' (Run σ)
    (fun run => by funext state; rw [map_apply]; rfl)
    (fun _ _ => rfl)
    (fun run next last => by
      funext state
      simp [bind_apply, List.append_assoc])

def emit (event : Event) : Run σ Unit := fun state => ⟨(), state, [⟨event, state, state⟩]⟩

def emitAll (events : List Event) : Run σ Unit := fun state =>
  ⟨(), state, events.map fun event => ⟨event, state, state⟩⟩

def observe (view : σ → α) : Run σ α := fun state => ⟨view state, state, []⟩

def change (step : σ → α × σ) : Run σ α := fun state => ⟨(step state).1, (step state).2, []⟩

def perform (event : Event) (step : σ → α × σ) : Run σ α := fun state =>
  ⟨(step state).1, (step state).2, [⟨event, state, (step state).2⟩]⟩

-- A call that is given up once it waits in a state in which `stop` holds, and not even started in one.
def guarded (stop : σ → Bool) (call : σ → Call σ α) (event : Option α → Event) : Run σ (Option α) := fun state =>
  if stop state then ⟨none, state, []⟩
  else
    let (answer, next) := (call state).finishUnless stop
    ⟨answer, next, [⟨event answer, state, next⟩]⟩

@[simp] theorem emit_apply (event : Event) (state : σ) :
    emit event state = ⟨(), state, [⟨event, state, state⟩]⟩ := rfl

@[simp] theorem emitAll_apply (events : List Event) (state : σ) :
    emitAll events state = ⟨(), state, events.map fun event => ⟨event, state, state⟩⟩ := rfl

@[simp] theorem observe_apply (view : σ → α) (state : σ) : observe view state = ⟨view state, state, []⟩ := rfl

@[simp] theorem change_apply (step : σ → α × σ) (state : σ) :
    change step state = ⟨(step state).1, (step state).2, []⟩ := rfl

@[simp] theorem perform_apply (event : Event) (step : σ → α × σ) (state : σ) :
    perform event step state = ⟨(step state).1, (step state).2, [⟨event, state, (step state).2⟩]⟩ := rfl

inductive Asked (stop : σ → Bool) (call : σ → Call σ α) (event : Option α → Event) (state : σ) :
    Option α → List (Moment σ) → σ → Prop where
  | unasked : stop state = true → Asked stop call event state none [] state
  | asked {answer : Option α} {next : σ} :
      stop state = false → (call state).finishUnless stop = (answer, next) →
      Asked stop call event state answer [⟨event answer, state, next⟩] next

theorem asked_guarded (stop : σ → Bool) (call : σ → Call σ α) (event : Option α → Event) (state : σ) :
    Asked stop call event state (guarded stop call event state).value (guarded stop call event state).trace
      (guarded stop call event state).state := by
  by_cases stopped : stop state = true
  · simpa [guarded, stopped] using Asked.unasked stopped
  · have running : stop state = false := by simpa using stopped
    simpa [guarded, running] using Asked.asked running rfl

end Run

end Reconciler
