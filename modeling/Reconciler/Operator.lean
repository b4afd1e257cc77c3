import Reconciler.Api.Namespaces
import Reconciler.Api.Workspaces
import Reconciler.Manager

set_option autoImplicit false

namespace Reconciler.Operator

def controller : String := "workspace"

def setup {σ : Type} (operator : String) (namespaces : Namespaces σ) : Setup σ where
  operator := operator
  controller := controller
  subroutines := [namespaces.subroutine]
  conditions := true
  spread := true

def manager {σ : Type} (operator : String) (namespaces : Namespaces σ) : Except Error (Manager σ) :=
  Manager.build (setup operator namespaces)

end Reconciler.Operator
