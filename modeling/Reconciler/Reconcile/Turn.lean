import Reconciler.Reconcile.Cycle

set_option autoImplicit false

namespace Reconciler

structure Turn where
  workspace : Workspace
  result : Except Error Outcome

def Outcome.fields (o : Outcome) : Log.Fields :=
  [("requeue", .flag o.requeue), ("requeue_after_secs", .number o.after.seconds)]

namespace Turn

variable {σ : Type}

def target : String := "converge_lifecycle::manager::runner"

def span (subroutine : String) : Log.Span := ⟨"subroutine", target, [("subroutine", .text subroutine)]⟩

def debug (c : Cycle σ) (message : String) (fields : Log.Fields) : Run σ Unit :=
  c.log { level := .debug, target := target, message := message, fields := fields }

def invoke (c : Cycle σ) (s : Subroutine σ) (phase : Phase) (w : Workspace) : Run σ (Option StepAnswer) := do
  match ← Run.guarded c.world.cancelled (s.step phase w) (.stepped s.name phase w) with
  | some answer =>
      c.logAll answer.notes
      pure (some answer)
  | none => pure none

def close (c : Cycle σ) (s : Subroutine σ) (w : Workspace) : Except OperatorError Outcome → Run σ Turn
  | .ok outcome => do
      debug c "end subroutine" outcome.fields
      pure ⟨w, .ok outcome⟩
  | .error failure => do
      Run.emit (.counted (.stepFailed c.manager.controller s.name failure.retry))
      c.log { level := .error, target := target, message := "subroutine ended with error",
              fields := [("error", .text failure.message), ("retry", .flag failure.retry)] }
      c.report (.subroutine s.name failure)
      pure ⟨w, .error (.subroutine s.name failure)⟩

def persistFinalizers (c : Cycle σ) (doing : String) (changed : Bool) (w : Workspace) :
    Run σ (Except Error Workspace) := do
  if changed then
    debug c doing []
    c.persistMetadata w
  else
    pure (.ok w)

def process (c : Cycle σ) (s : Subroutine σ) (w : Workspace) : Run σ Turn := do
  let (w, changed) := w.register s.finalizers
  match ← persistFinalizers c "registering finalizers" changed w with
  | .error error => pure ⟨w, .error error⟩
  | .ok w =>
      match ← invoke c s .process w with
      | some answer => close c s answer.workspace answer.result
      | none => pure ⟨w, .error .cancelled⟩

def finalize (c : Cycle σ) (s : Subroutine σ) (w : Workspace) : Run σ Turn := do
  match ← invoke c s .finalize w with
  | none => pure ⟨w, .error .cancelled⟩
  | some answer =>
      -- The tokens come off before the turn ends, so a failed write keeps the step from counting as done.
      let (w, changed) := answer.workspace.releaseIfIdle s.finalizers answer.result
      match ← persistFinalizers c "releasing finalizers" changed w with
      | .error error => pure ⟨w, .error error⟩
      | .ok w => close c s w answer.result

def run (c : Cycle σ) (s : Subroutine σ) (w : Workspace) : Run σ Turn := do
  let c := { c with spans := span s.name :: c.spans }
  debug c "start subroutine" []
  if w.isBeingDeleted then finalize c s w else process c s w

end Turn

end Reconciler
