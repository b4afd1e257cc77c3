import Reconciler.Condition.Basic
import Reconciler.Phase

set_option autoImplicit false

namespace Reconciler

namespace Condition

def revise (old new : Condition) : Condition :=
  { old with
    status := new.status
    reason := new.reason
    message := new.message
    lastTransition := if old.status = new.status then old.lastTransition else new.lastTransition }

def differs (old new : Condition) : Bool :=
  old.status ≠ new.status || old.reason ≠ new.reason || old.message ≠ new.message

end Condition

abbrev Ledger := List Condition

namespace Ledger

def find? (ledger : Ledger) (type : String) : Option Condition :=
  List.find? (fun c => c.type = type) ledger

def set (new : Condition) : Ledger → Ledger × Bool
  | [] => ([new], true)
  | old :: rest =>
      if old.type = new.type then (old.revise new :: rest, old.differs new)
      else
        let (rest, changed) := set new rest
        (old :: rest, changed)

def completeReason : String := "Complete"
def processingReason : String := "Processing"
def errorReason : String := "Error"

def readyReason : ConditionStatus → String
  | .true => completeReason
  | .false | .unknown => processingReason

def readyMessage : ConditionStatus → String
  | .true => "The resource is ready"
  | .false => "The resource is not ready"
  | .unknown => "The resource is processing"

def setReady (now : Timestamp) (status : ConditionStatus) (ledger : Ledger) : Ledger × Bool :=
  set ⟨Condition.ready, status, readyReason status, readyMessage status, now⟩ ledger

def setReadyError (now : Timestamp) (message : String) (ledger : Ledger) : Ledger × Bool :=
  set ⟨Condition.ready, .false, errorReason, "The resource has an error: " ++ message, now⟩ ledger

def setUnknownIfAbsent (now : Timestamp) (ledger : Ledger) : Ledger × Bool :=
  -- A ready resource stays ready while it is reconciled again.
  if (ledger.find? Condition.ready).isSome then (ledger, false) else setReady now .unknown ledger

def setSubroutine (now : Timestamp) (subroutine : String) (phase : Phase) (status : ConditionStatus)
    (message reason : String) (ledger : Ledger) : Ledger × Bool :=
  set ⟨phase.conditionType subroutine, status, reason, message, now⟩ ledger

def processing (now : Timestamp) (subroutine : String) (phase : Phase) (ledger : Ledger) : Ledger × Bool :=
  setSubroutine now subroutine phase .unknown ("The " ++ phase.noun ++ " is processing") processingReason ledger

def complete (now : Timestamp) (subroutine : String) (phase : Phase) (ledger : Ledger) : Ledger × Bool :=
  setSubroutine now subroutine phase .true ("The " ++ phase.noun ++ " is complete") completeReason ledger

def failed (now : Timestamp) (subroutine : String) (phase : Phase) (error : String) (ledger : Ledger) :
    Ledger × Bool :=
  setSubroutine now subroutine phase .false ("The " ++ phase.noun ++ " has an error: " ++ error) errorReason ledger

@[simp] theorem set_nil (new : Condition) : set new [] = ([new], true) := rfl

theorem set_cons_of_eq {old new : Condition} (rest : Ledger) (h : old.type = new.type) :
    set new (old :: rest) = (old.revise new :: rest, old.differs new) := by
  simp [set, h]

theorem set_cons_of_ne {old new : Condition} (rest : Ledger) (h : old.type ≠ new.type) :
    set new (old :: rest) = (old :: (set new rest).1, (set new rest).2) := by
  simp [set, h]

end Ledger

end Reconciler
