import Reconciler.Time.Timestamp

set_option autoImplicit false

namespace Reconciler

inductive ConditionStatus where
  | true
  | false
  | unknown
  deriving DecidableEq, Repr

namespace ConditionStatus

def text : ConditionStatus → String
  | true => "True"
  | false => "False"
  | unknown => "Unknown"

def ofText? : String → Option ConditionStatus
  | "True" => some true
  | "False" => some false
  | "Unknown" => some unknown
  | _ => none

@[simp] theorem ofText?_text (s : ConditionStatus) : ofText? s.text = some s := by
  cases s <;> rfl

end ConditionStatus

structure Condition where
  type : String
  status : ConditionStatus
  reason : String
  message : String
  lastTransition : Timestamp
  deriving DecidableEq, Repr

namespace Condition

def isTrue (c : Condition) : Bool :=
  c.status = .true

def ready : String := "Ready"

end Condition

end Reconciler
