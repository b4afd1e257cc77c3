import Reconciler.Api.Exchange
import Reconciler.Store.Basic
import Reconciler.Workspace.Encode

set_option autoImplicit false

namespace Reconciler.Api.Workspaces

open Http

def everywhere : String := "/apis/converge.dev/v1alpha1/workspaces"

def collection (ns : String) : String :=
  "/apis/converge.dev/v1alpha1/namespaces/" ++ ns ++ "/workspaces"

def getDraft (id : ResourceId) : Draft :=
  ⟨.get, collection id.ns, id.name, "", none⟩

def replaceDraft (w : Workspace) : Draft :=
  ⟨.put, collection w.id.ns, w.id.name, "?", some ⟨jsonType, w.toJson⟩⟩

def statusPatch (w : Workspace) : Json :=
  .object [
    -- The server refuses the patch when the version is no longer the stored one.
    ("metadata", .object [("resourceVersion", (w.metadata.resourceVersion.map .string).getD .null)]),
    ("status", (w.status.map (·.toJson)).getD .null)]

def statusDraft (w : Workspace) : Draft :=
  ⟨.patch, collection w.id.ns, w.id.name, "/status?", some ⟨mergePatchType, statusPatch w⟩⟩

def statusRequest? (w : Workspace) : Option Request :=
  (statusDraft w).request?

def found? : Except ClientError Workspace → Except Error (Option Workspace)
  | .ok w => .ok (some w)
  -- The reason counts, not the code.
  | .error (.api failure) => if failure.reason = "NotFound" then .ok none else .error (.client (.api failure))
  | .error error => .error (.client error)

def stored : Except ClientError Workspace → Except Error Workspace
  | .ok w => .ok w
  | .error error => .error (.client error)

def store {σ : Type} (words : Wording) (send : Transport σ) : Store σ where
  get id state := (exchange words send (getDraft id) Workspace.ofJson? state).map found?
  update w state := (exchange words send (replaceDraft w) Workspace.ofJson? state).map stored
  updateStatus w state := (exchange words send (statusDraft w) Workspace.ofJson? state).map stored

end Reconciler.Api.Workspaces
