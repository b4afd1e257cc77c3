import Reconciler.Api.Exchange
import Reconciler.Namespace.Subroutine
import Reconciler.Workspace.Encode

set_option autoImplicit false

namespace Reconciler.Api.Namespaces

open Http

def collection : String := "/api/v1/namespaces"

def fieldManager : String := "converge-operator"

def manifest (name : String) (labels : Labels) : Json :=
  .object [
    ("apiVersion", .string "v1"),
    ("kind", .string "Namespace"),
    ("metadata", .object [("name", .string name), ("labels", labels.toJson)])]

def applyDraft (name : String) (labels : Labels) : Draft :=
  ⟨.patch, collection, name, "?&force=true&fieldManager=" ++ fieldManager,
    some ⟨applyPatchType, manifest name labels⟩⟩

def deleteDraft (name : String) : Draft :=
  ⟨.delete, collection, name, "?", some ⟨jsonType, .object []⟩⟩

def isConstant (name value : String) (members : List (String × Json)) : Bool :=
  match Json.lookup name members with
  | some j => j = .string value
  | none => true

def readCondition? : Json → Option Unit
  | .object members => do
      let _ ← Json.optional "lastTransitionTime" Json.timestamp? members
      let _ ← Json.optional "message" Json.string? members
      let _ ← Json.optional "reason" Json.string? members
      let _ ← Json.optional "status" Json.string? members
      let _ ← Json.optional "type" Json.string? members
      pure ()
  | _ => none

def readSpec? : Json → Option Unit
  | .object members => do
      let _ ← Json.optional "finalizers" (Json.listOf? Json.string?) members
      pure ()
  | _ => none

def readStatus? : Json → Option Unit
  | .object members => do
      let _ ← Json.optional "conditions" (Json.listOf? readCondition?) members
      let _ ← Json.optional "phase" Json.string? members
      pure ()
  | _ => none

def readNamespace? : Json → Option Unit
  | .object members => do
      if isConstant "apiVersion" "v1" members && isConstant "kind" "Namespace" members then
        let _ ← Json.optional "metadata" Metadata.ofJson? members
        let _ ← Json.optional "spec" readSpec? members
        let _ ← Json.optional "status" readStatus? members
        pure ()
      else none
  | _ => none

def readSummary? (j : Json) : Option Unit :=
  match j.unitName? with
  | some "Success" | some "Failure" => some ()
  | _ => none

def readCause? (j : Json) : Option Unit := do
  let members ← Json.record? ["reason", "message", "field"] j
  let _ ← Json.defaulted "reason" "" Json.string? members
  let _ ← Json.defaulted "message" "" Json.string? members
  let _ ← Json.defaulted "field" "" Json.string? members
  pure ()

def readDetails? (j : Json) : Option Unit := do
  let members ← Json.record? ["name", "group", "kind", "uid", "causes", "retryAfterSeconds"] j
  let _ ← Json.defaulted "name" "" Json.string? members
  let _ ← Json.defaulted "group" "" Json.string? members
  let _ ← Json.defaulted "kind" "" Json.string? members
  let _ ← Json.defaulted "uid" "" Json.string? members
  let _ ← Json.defaulted "causes" [] (Json.listOf? readCause?) members
  let _ ← Json.defaulted "retryAfterSeconds" 0 Json.word32? members
  pure ()

def readStatusAnswer? (j : Json) : Option Unit := do
  let members ← Json.record? ["status", "code", "message", "reason", "details"] j
  let _ ← Json.optional "status" readSummary? members
  let _ ← Json.defaulted "code" 0 Json.word16? members
  let _ ← Json.defaulted "message" "" Json.string? members
  let _ ← Json.defaulted "reason" "" Json.string? members
  let _ ← Json.optional "details" readDetails? members
  pure ()

def readDeleted? (j : Json) : Option Bool :=
  if j.member? "kind" = some (.string "Status") then (readStatusAnswer? j).map fun _ => true
  else (readNamespace? j).map fun _ => false

def gone? : Except ClientError Bool → Except ClientError Bool
  -- The code counts, not the reason.
  | .error (.api failure) => if failure.code = 404 then .ok true else .error (.api failure)
  | answer => answer

def client {σ : Type} (words : Wording) (send : Transport σ) : Reconciler.Namespaces σ where
  apply name labels state := exchange words send (applyDraft name labels) readNamespace? state
  delete name state := (exchange words send (deleteDraft name) readDeleted? state).map gone?

end Reconciler.Api.Namespaces
