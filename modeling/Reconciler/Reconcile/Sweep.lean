import Reconciler.Reconcile.Turn

set_option autoImplicit false

namespace Reconciler

inductive Swept where
  | finished (outcome : Outcome)
  | cancelled
  | failed (subroutine : String) (error : Error)

namespace Sweep

variable {σ : Type}

def isSkipped (phase : Phase) (s : Subroutine σ) (w : Workspace) : Bool :=
  phase = .finalize && !Finalizer.isRegistered s.finalizers w.finalizers

def run (c : Cycle σ) (phase : Phase) (now : Timestamp) :
    List (Subroutine σ) → Outcome → Workspace → Run σ (Workspace × Swept)
  | [], outcome, w => pure (w, .finished outcome)
  | s :: rest, outcome, w => do
      -- A subroutine that ignores a cancellation must not let the next one start.
      if ← c.isCancelled then
        pure (w, .cancelled)
      else if isSkipped phase s w then
        c.log { level := .debug, target := Cycle.target,
                message := "no finalizer registered, skipping finalization",
                fields := [("subroutine", .text s.name)] }
        run c phase now rest outcome w
      else
        let turn ← Turn.run c s (c.amend (Ledger.processing now s.name phase) w)
        match turn.result with
        | .ok result =>
            let w := turn.workspace
            run c phase now rest (outcome.merge result)
              (if result.isDone then c.amend (Ledger.complete now s.name phase) w else w)
        -- The status is not written then, so the workspace goes no further.
        | .error .cancelled => pure (turn.workspace, .cancelled)
        | .error error => pure (turn.workspace, .failed s.name error)

end Sweep

end Reconciler
