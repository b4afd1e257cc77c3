import Reconciler.Api.Workspaces
import Reconciler.Controller.Basic
import Reconciler.Text.Percent

set_option autoImplicit false

namespace Reconciler.Api.Watch

open Http

def pageSize : Nat := 500

def parameter (name value : String) : String :=
  name ++ "=" ++ Text.formEncode value

def selection (watch : Controller.Watch) : List String :=
  (watch.fieldSelector.map (parameter "fieldSelector")).toList ++
    (watch.labelSelector.map (parameter "labelSelector")).toList

def listRequest (watch : Controller.Watch) : Request where
  method := .get
  target := ⟨Workspaces.everywhere, selection watch ++ [parameter "limit" (toString pageSize)]⟩

def watchRequest (watch : Controller.Watch) (version : String) : Request where
  method := .get
  target := ⟨Workspaces.everywhere,
    [parameter "watch" "true", parameter "timeoutSeconds" (toString (watch.timeout.getD 290))] ++ selection watch ++
      [parameter "allowWatchBookmarks" "true", parameter "resourceVersion" version]⟩

end Reconciler.Api.Watch
