import Reconciler.Error.Basic
import Reconciler.Http.Basic
import Reconciler.Json.Reader
import Reconciler.Text.Quoted
import Reconciler.Workspace.Decode

set_option autoImplicit false

namespace Reconciler.Api

open Http

def readFailure? (j : Json) : Option ApiFailure := do
  let members ← Json.record? ["status", "message", "reason", "code"] j
  pure {
    status := ← Json.required "status" Json.string? members
    message := ← Json.defaulted "message" "" Json.string? members
    reason := ← Json.defaulted "reason" "" Json.string? members
    code := ← Json.required "code" Json.word16? members }

def unreadableFailure (r : Response) : ApiFailure where
  status := statusText r.status
  message := Text.quote r.body
  reason := "Failed to parse error data"
  code := UInt16.ofNat r.status

def failure? (r : Response) : Option ApiFailure :=
  if r.isRefusal then
    some (((Json.parse? r.body).bind readFailure?).getD (unreadableFailure r))
  else none

-- What is asked about an object of a collection, before it is a request.
structure Draft where
  method : Method
  collection : String
  name : String
  suffix : String
  content : Option Content
  deriving DecidableEq, Repr

def Draft.request? (d : Draft) : Option Request :=
  if d.name = "" then none
  else (Target.parse? (d.collection ++ "/" ++ d.name ++ d.suffix)).map fun target => ⟨d.method, target, d.content⟩

-- The words of those who put requests together and decode answers.
structure Wording where
  badRequest : Draft → Foreign
  undecodable : Draft → Response → Foreign

def interpret {α : Type} (undecodable : Response → Foreign) (read : Json → Option α) (r : Response) :
    Except ClientError α :=
  match failure? r with
  | some failure => .error (.api failure)
  | none =>
      match (Json.parse? r.body).bind read with
      | some value => .ok value
      | none => .error (.undecodable (undecodable r))

def exchange {σ α : Type} (words : Wording) (send : Transport σ) (draft : Draft) (read : Json → Option α)
    (state : σ) : Call σ (Except ClientError α) :=
  match draft.request? with
  | none => .done (.error (.badRequest (words.badRequest draft))) state
  | some request => (send request state).map fun
      | .ok response => interpret (words.undecodable draft) read response
      | .error failure => .error (.other failure)

def jsonType : String := "application/json"

def mergePatchType : String := "application/merge-patch+json"

def applyPatchType : String := "application/apply-patch+yaml"

end Reconciler.Api
