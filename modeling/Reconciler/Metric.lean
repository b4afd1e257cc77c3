set_option autoImplicit false

namespace Reconciler

inductive Ending where
  | success
  | requeue
  | error
  | skipped
  | notFound
  deriving DecidableEq, Repr

def Ending.text : Ending → String
  | success => "success"
  | requeue => "requeue"
  | error => "error"
  | skipped => "skipped"
  | notFound => "not_found"

inductive Metric where
  | reconciled (controller : String) (ending : Ending)
  | timed (controller : String)
  | stepFailed (controller subroutine : String) (retry : Bool)
  deriving DecidableEq, Repr

namespace Metric

def name : Metric → String
  | reconciled .. => "converge_reconcile_total"
  | timed .. => "converge_reconcile_duration_seconds"
  | stepFailed .. => "converge_subroutine_errors_total"

def labels : Metric → List (String × String)
  | reconciled controller ending => [("controller", controller), ("result", ending.text)]
  | timed controller => [("controller", controller)]
  | stepFailed controller subroutine retry =>
      [("controller", controller), ("retry", if retry then "true" else "false"), ("subroutine", subroutine)]

def tally : List Metric → List (Metric × Nat)
  | [] => []
  | metric :: rest => add metric (tally rest)
where
  add (metric : Metric) : List (Metric × Nat) → List (Metric × Nat)
    | [] => [(metric, 1)]
    | (other, n) :: rest => if metric = other then (other, n + 1) :: rest else (other, n) :: add metric rest

end Metric

end Reconciler
