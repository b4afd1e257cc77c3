import Reconciler.Call
import Reconciler.Error.Basic
import Reconciler.Workspace.Basic

set_option autoImplicit false

namespace Reconciler

structure Store (σ : Type) where
  get : ResourceId → σ → Call σ (Except Error (Option Workspace))
  update : Workspace → σ → Call σ (Except Error Workspace)
  updateStatus : Workspace → σ → Call σ (Except Error Workspace)

end Reconciler
