import Reconciler.Reconcile.Basic

set_option autoImplicit false

namespace Reconciler.Controller

def target : String := "converge_lifecycle::controller"

def debugLabel : String := "converge.dev/debug"

def selector (debugValue : String) : String :=
  if debugValue = "" then "!" ++ debugLabel else debugLabel ++ "=" ++ debugValue

structure Watch where
  labelSelector : Option String
  fieldSelector : Option String
  timeout : Option Nat
  deriving DecidableEq, Repr

def watchTimeout : Nat := 25

def watch (debugValue : String) : Watch :=
  ⟨some (selector debugValue), none, some watchTimeout⟩

def reconcile {σ : Type} (m : Manager σ) (world : World σ) (w : Workspace) : Run σ (Except Stop Action) := do
  match ← m.reconcile world w.id with
  | .ok outcome => pure (.ok outcome.action)
  | .error stop => pure (.error stop)

def errorAction (error : Error) (errorRequeue : Duration) : Action :=
  if error.isRetryable then .requeue errorRequeue else .awaitChange

def errorNote (w : Workspace) (error : Error) : Log.Note where
  level := if error.isRetryable then .warn else .error
  target := target
  message :=
    if error.isRetryable then "reconciliation failed, retrying"
    else "reconciliation failed permanently, waiting for a change"
  fields := [
    ("error", .text error.message),
    ("namespace", .text w.id.ns),
    ("name", .text w.id.name)]

end Reconciler.Controller
