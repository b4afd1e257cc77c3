import Reconciler.Workspace.Basic

set_option autoImplicit false

namespace Reconciler.Spread

def refreshLabel : String := "converge.dev/refresh-reconcile"

def windowMinutes : Nat := 720

def least : Duration := .ofMinutes 720

def delay (minutes : Fin windowMinutes) : Duration :=
  .ofMinutes (720 + minutes)

def hasRefreshMarker (w : Workspace) : Bool :=
  w.labels.contains refreshLabel

def clearRefreshMarker (w : Workspace) : Workspace × Bool :=
  (w.setLabels (w.labels.erase refreshLabel), hasRefreshMarker w)

def generationObserved (w : Workspace) : Bool :=
  w.currentStatus.observedGeneration == some w.generation

def windowOpen (w : Workspace) (now : Timestamp) : Bool :=
  match w.currentStatus.nextReconcile with
  | some next => now.before next
  | none => false

def remaining (w : Workspace) (now : Timestamp) : Duration :=
  ((w.currentStatus.nextReconcile).bind fun next => next.since? now).getD .zero

def shouldSkip (w : Workspace) (now : Timestamp) : Option Duration :=
  if hasRefreshMarker w then none
  else if !generationObserved w && !windowOpen w now then none
  else some (remaining w now)

def isEligible (w : Workspace) (now : Timestamp) : Bool :=
  (shouldSkip w now).isNone

-- Records a finished reconcile: its generation, and when the next one is due. None if that is after
-- the last day of the calendar.
def scheduleNext? (w : Workspace) (now : Timestamp) (minutes : Fin windowMinutes) : Option Workspace :=
  -- The fraction of the second stays as it is.
  (now.addSeconds? (delay minutes).seconds).map fun next =>
    w.modifyStatus fun s => { s with nextReconcile := some next, observedGeneration := some w.generation }

@[simp] theorem seconds_delay (minutes : Fin windowMinutes) : (delay minutes).seconds = 43200 + 60 * minutes := by
  simp [delay, Duration.ofMinutes]
  omega

end Reconciler.Spread
