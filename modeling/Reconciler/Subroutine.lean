import Reconciler.Call
import Reconciler.Error.Basic
import Reconciler.Finalizer
import Reconciler.Log
import Reconciler.Workspace.Basic

set_option autoImplicit false

namespace Reconciler

structure StepAnswer where
  workspace : Workspace
  result : Except OperatorError Outcome
  notes : List Log.Note := []

structure Subroutine (σ : Type) where
  name : String
  finalizers : List Finalizer.Token := []
  process : Workspace → σ → Call σ StepAnswer
  finalize : Workspace → σ → Call σ StepAnswer

namespace Subroutine

def step {σ : Type} (s : Subroutine σ) : Phase → Workspace → σ → Call σ StepAnswer
  | .process => s.process
  | .finalize => s.finalize

end Subroutine

namespace Workspace

def phase (w : Workspace) : Phase :=
  if w.isBeingDeleted then .finalize else .process

def register (tokens : List Finalizer.Token) (w : Workspace) : Workspace × Bool :=
  let (finalizers, changed) := Finalizer.register tokens w.finalizers
  (w.setFinalizers finalizers, changed)

def releaseIfIdle (tokens : List Finalizer.Token) (result : Except OperatorError Outcome) (w : Workspace) :
    Workspace × Bool :=
  let (finalizers, changed) := Finalizer.releaseIfIdle tokens w.finalizers result
  match result with
  | .ok outcome => (if outcome.isDone then w.setFinalizers finalizers else w, changed)
  | .error _ => (w, changed)

theorem mem_finalizers_register {token : Finalizer.Token} (tokens : List Finalizer.Token) (w : Workspace) :
    token ∈ (w.register tokens).1.finalizers ↔ token ∈ w.finalizers ∨ token ∈ tokens :=
  Finalizer.mem_register tokens w.finalizers

theorem finalizers_register_of_unchanged {tokens : List Finalizer.Token} {w : Workspace}
    (h : (w.register tokens).2 = false) : (w.register tokens).1.finalizers = w.finalizers :=
  Finalizer.register_of_unchanged h

theorem finalizers_releaseIfIdle (tokens : List Finalizer.Token) (result : Except OperatorError Outcome)
    (w : Workspace) :
    (w.releaseIfIdle tokens result).1.finalizers = (Finalizer.releaseIfIdle tokens w.finalizers result).1 := by
  rcases result with error | outcome
  · rfl
  · by_cases done : outcome.isDone = true
    · simp [releaseIfIdle, Finalizer.releaseIfIdle, done]
    · simp [releaseIfIdle, Finalizer.releaseIfIdle, done]

theorem releaseIfIdle_keeps {α : Type} (view : Workspace → α)
    (blind : ∀ w tokens, view (w.setFinalizers tokens) = view w) (tokens : List Finalizer.Token)
    (result : Except OperatorError Outcome) (w : Workspace) : view (w.releaseIfIdle tokens result).1 = view w := by
  rcases result with error | outcome
  · rfl
  · by_cases done : outcome.isDone = true
    · simp [releaseIfIdle, done, blind]
    · simp [releaseIfIdle, done]

theorem changed_releaseIfIdle (tokens : List Finalizer.Token) (result : Except OperatorError Outcome)
    (w : Workspace) :
    (w.releaseIfIdle tokens result).2 = (Finalizer.releaseIfIdle tokens w.finalizers result).2 := by
  rcases result with error | outcome <;> rfl

end Workspace

end Reconciler
