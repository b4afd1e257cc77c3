import Reconciler.Metric
import Reconciler.Report
import Reconciler.Subroutine

set_option autoImplicit false

namespace Reconciler

-- A call that was given up on the way has no answer, and one that was never started is no event.
inductive Event where
  | fetched (id : ResourceId) (answer : Option (Except Error (Option Workspace)))
  | updated (given : Workspace) (answer : Option (Except Error Workspace))
  | statusUpdated (given : Workspace) (answer : Option (Except Error Workspace))
  | stepped (subroutine : String) (phase : Phase) (given : Workspace) (answer : Option StepAnswer)
  | logged (record : Log.Record)
  | reported (error : Error) (tags : Tags)
  | counted (metric : Metric)

namespace Event

def isWrite : Event → Bool
  | updated .. | statusUpdated .. => true
  | _ => false

def isCall : Event → Bool
  | fetched .. | updated .. | statusUpdated .. | stepped .. => true
  | _ => false

def record? : Event → Option Log.Record
  | logged record => some record
  | _ => none

def metric? : Event → Option Metric
  | counted metric => some metric
  | _ => none

end Event

end Reconciler
