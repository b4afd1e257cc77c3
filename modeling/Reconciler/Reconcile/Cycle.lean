import Reconciler.Manager
import Reconciler.Reconcile.Run
import Reconciler.World

set_option autoImplicit false

namespace Reconciler

structure Cycle (σ : Type) where
  manager : Manager σ
  world : World σ
  tags : Tags
  spans : List Log.Span

namespace Workspace

def adoptVersion (w stored : Workspace) : Workspace :=
  w.setResourceVersion stored.metadata.resourceVersion

end Workspace

namespace Cycle

variable {σ α : Type}

def target : String := "converge_lifecycle::manager"

def span (tags : Tags) : Log.Span := ⟨"reconcile", target, tags.fields⟩

def log (c : Cycle σ) (note : Log.Note) : Run σ Unit :=
  Run.emit (.logged ⟨note, c.spans⟩)

def logAll (c : Cycle σ) (notes : List Log.Note) : Run σ Unit :=
  Run.emitAll (notes.map fun note => .logged ⟨note, c.spans⟩)

def report (c : Cycle σ) (error : Error) : Run σ Unit := do
  if error.shouldReport then
    let notes ← Run.perform (.reported error c.tags) (c.world.capture error c.tags)
    c.logAll notes
  else
    pure ()

def isCancelled (c : Cycle σ) : Run σ Bool :=
  Run.observe c.world.cancelled

def ask (c : Cycle σ) (call : σ → Call σ (Except Error α)) (event : Option (Except Error α) → Event) :
    Run σ (Except Error α) := do
  let answer ← Run.guarded c.world.cancelled call event
  pure (answer.getD (.error .cancelled))

def get (c : Cycle σ) (id : ResourceId) : Run σ (Except Error (Option Workspace)) :=
  c.ask (c.world.get id) (.fetched id)

def update (c : Cycle σ) (w : Workspace) : Run σ (Except Error Workspace) :=
  c.ask (c.world.update w) (.updated w)

def updateStatus (c : Cycle σ) (w : Workspace) : Run σ (Except Error Workspace) :=
  c.ask (c.world.updateStatus w) (.statusUpdated w)

def storeFailed (c : Cycle σ) (doing : String) (error : Error) : Run σ Unit := do
  -- Somebody asked for the cancellation, so it is no news.
  if error ≠ .cancelled then
    c.log { level := .error, target := target, message := doing, fields := [("error", .text error.message)] }
  else
    pure ()
  c.report error

def persistMetadata (c : Cycle σ) (w : Workspace) : Run σ (Except Error Workspace) := do
  match ← c.update w with
  | .ok stored => pure (.ok (w.adoptVersion stored))
  | .error error =>
      c.storeFailed "failed to update instance" error
      pure (.error error)

-- The write found nothing because the store let go of the resource with its last finalizer.
def isGone (w : Workspace) (error : Error) : Bool :=
  error.isNotFound && w.isBeingDeleted && w.finalizers.isEmpty

def persistStatus (c : Cycle σ) (before : Workspace.Status) (w : Workspace) : Run σ (Except Error Workspace) := do
  if w.currentStatus = before then
    c.log { level := .info, target := target, message := "skipping status update, since they are equal" }
    pure (.ok w)
  else
    c.log { level := .info, target := target, message := "updating resource status" }
    match ← c.updateStatus w with
    | .ok stored => pure (.ok (w.adoptVersion stored))
    | .error error =>
        if isGone w error then
          c.log { level := .debug, target := target,
                  message := "resource removed after its last finalizer was released" }
          pure (.ok w)
        else
          c.storeFailed "cannot update reconciliation conditions, kubernetes client error" error
          pure (.error error)

def amend (c : Cycle σ) (change : Ledger → Ledger × Bool) (w : Workspace) : Workspace :=
  if c.manager.conditions then w.setConditions (change w.conditions).1 else w

theorem amend_of_conditions {c : Cycle σ} (h : c.manager.conditions = true) (change : Ledger → Ledger × Bool)
    (w : Workspace) : c.amend change w = w.setConditions (change w.conditions).1 := by
  simp [amend, h]

@[simp] theorem metadata_amend (c : Cycle σ) (change : Ledger → Ledger × Bool) (w : Workspace) :
    (c.amend change w).metadata = w.metadata := by
  unfold amend
  split <;> rfl

@[simp] theorem spec_amend (c : Cycle σ) (change : Ledger → Ledger × Bool) (w : Workspace) :
    (c.amend change w).spec = w.spec := by
  unfold amend
  split <;> rfl

end Cycle

end Reconciler
