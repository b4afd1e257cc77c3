import Reconciler.Call
import Reconciler.Error.Basic
import Reconciler.Http.Reason
import Reconciler.Http.Target
import Reconciler.Json.Basic

set_option autoImplicit false

namespace Reconciler.Http

inductive Method where
  | get
  | put
  | patch
  | delete
  deriving DecidableEq, Repr

def Method.text : Method → String
  | get => "GET"
  | put => "PUT"
  | patch => "PATCH"
  | delete => "DELETE"

structure Content where
  type : String
  value : Json
  deriving DecidableEq, Repr

structure Request where
  method : Method
  target : Target
  content : Option Content := none
  deriving DecidableEq, Repr

structure Response where
  status : Nat
  body : String
  deriving DecidableEq, Repr

namespace Response

def isRefusal (r : Response) : Bool :=
  400 ≤ r.status && r.status < 600

end Response

-- A request may fail on the way.
abbrev Transport (σ : Type) := Request → σ → Call σ (Except Foreign Response)

end Reconciler.Http
