import Reconciler.Reconcile.Sweep

set_option autoImplicit false

namespace Reconciler

inductive Finished where
  | notFound
  | skipped (outcome : Outcome)
  | reconciled (outcome : Outcome)
  deriving DecidableEq, Repr

namespace Finished

def outcome : Finished → Outcome
  | notFound => .done
  | skipped outcome => outcome
  | reconciled outcome => outcome

def ending : Finished → Ending
  | notFound => .notFound
  | skipped _ => .skipped
  | reconciled outcome => if outcome.isDone then .success else .requeue

end Finished

inductive Stop where
  | error (error : Error)
  | beyondCalendar
  deriving DecidableEq, Repr

namespace Reconcile

variable {σ : Type}

def log (c : Cycle σ) (level : Log.Level) (message : String) (fields : Log.Fields) : Run σ Unit :=
  c.log { level := level, target := Cycle.target, message := message, fields := fields }

def spreadTarget : String := "converge_lifecycle::spread"

def optionalNumber : Option Int64 → String
  | some n => "Some(" ++ toString n.toInt ++ ")"
  | none => "None"

def schedules (c : Cycle σ) (phase : Phase) (outcome : Outcome) : Bool :=
  outcome.isDone && c.manager.spread && phase = .process

def schedule (c : Cycle σ) (phase : Phase) (now : Timestamp) (outcome : Outcome) (w : Workspace) :
    Run σ (Option Workspace) := do
  if schedules c phase outcome then
    let minutes ← Run.change c.world.draw
    match Spread.scheduleNext? w now minutes with
    | none => pure none
    | some scheduled =>
        c.logAll [
          { level := .debug, target := spreadTarget, message := "setting next reconcile time",
            fields := [("minutes_till_next_execution", .number (Spread.delay minutes).minutes)] },
          { level := .debug, target := spreadTarget, message := "updating observed generation",
            fields := [("observed_generation", .text (optionalNumber w.currentStatus.observedGeneration)),
              ("generation", .number w.generation.toInt)] }]
        pure (some scheduled)
  else
    pure (some w)

def unlabels (c : Cycle σ) (phase : Phase) (w : Workspace) : Bool :=
  c.manager.spread && phase = .process && Spread.hasRefreshMarker w

def clearRefresh (c : Cycle σ) (phase : Phase) (w : Workspace) : Run σ (Except Error Unit) := do
  if unlabels c phase w then
    log c .debug "removing refresh label" []
    match ← c.persistMetadata (Spread.clearRefreshMarker w).1 with
    | .ok _ => pure (.ok ())
    | .error error => pure (.error error)
  else
    pure (.ok ())

def conclude (c : Cycle σ) (phase : Phase) (now : Timestamp) (before : Workspace.Status) (outcome : Outcome)
    (w : Workspace) : Run σ (Except Stop Finished) := do
  match ← schedule c phase now outcome w with
  | none => pure (.error .beyondCalendar)
  | some w =>
      let w := c.amend (Ledger.setReady now (if outcome.isDone then .true else .false)) w
      match ← c.persistStatus before w with
      | .error error => pure (.error (.error error))
      | .ok w =>
          -- While this can still fail, the label stays and asks for another reconcile.
          match ← clearRefresh c phase w with
          | .error error => pure (.error (.error error))
          | .ok _ =>
              log c .info "end reconcile" outcome.fields
              pure (.ok (.reconciled outcome))

def abort (c : Cycle σ) (phase : Phase) (now : Timestamp) (before : Workspace.Status) (subroutine : String)
    (error : Error) (w : Workspace) : Run σ (Except Stop Finished) := do
  let message := error.failureMessage
  let w := c.amend (Ledger.failed now subroutine phase message) w
  let w := c.amend (Ledger.setReadyError now message) w
  match ← c.persistStatus before w with
  | .ok _ => pure (.error (.error error))
  -- The failure of the subroutine is the result all the same.
  | .error second =>
      log c .warn "status not persisted after subroutine failure" [("error", .text second.message)]
      pure (.error (.error error))

def converge (c : Cycle σ) (now : Timestamp) (fetched : Workspace) : Run σ (Except Stop Finished) := do
  -- Without a status the empty one is what the written status is compared with.
  let before := fetched.currentStatus
  let phase := fetched.phase
  let w := c.amend (Ledger.setUnknownIfAbsent now) fetched
  match ← Sweep.run c phase now c.manager.subroutines .done w with
  | (w, .finished outcome) => conclude c phase now before outcome w
  | (_, .cancelled) => pure (.error (.error .cancelled))
  | (w, .failed subroutine error) => abort c phase now before subroutine error w

def skips (c : Cycle σ) (now : Timestamp) (w : Workspace) : Option Duration :=
  if c.manager.spread && !w.isBeingDeleted then Spread.shouldSkip w now else none

def run (c : Cycle σ) (id : ResourceId) : Run σ (Except Stop Finished) := do
  log c .info "start reconcile" []
  match ← c.get id with
  | .error error =>
      c.storeFailed "failed to retrieve instance" error
      pure (.error (.error error))
  | .ok none =>
      log c .info "instance not found, it was likely deleted" []
      pure (.ok .notFound)
  | .ok (some fetched) =>
      let now ← Run.observe c.world.now
      match skips c now fetched with
      | some remaining =>
          log c .debug "completed reconciliation, no processing needed"
            [("minutes_till_next_execution", .number remaining.minutes)]
          pure (.ok (.skipped (.requeueAfter remaining)))
      | none => converge c now fetched

def finish (controller : String) : Except Stop Finished → Run σ (Except Stop Outcome)
  | .ok finished => do
      Run.emitAll [.counted (.timed controller), .counted (.reconciled controller finished.ending)]
      pure (.ok finished.outcome)
  | .error .beyondCalendar => pure (.error .beyondCalendar)
  | .error (.error error) => do
      Run.emitAll [.counted (.timed controller), .counted (.reconciled controller .error)]
      pure (.error (.error error))

end Reconcile

namespace Manager

variable {σ : Type}

def cycle (m : Manager σ) (world : World σ) (id : ResourceId) (correlation : String) : Cycle σ :=
  let tags : Tags := ⟨m.operator, m.controller, id, correlation⟩
  ⟨m, world, tags, [Cycle.span tags]⟩

@[simp] theorem manager_cycle (m : Manager σ) (world : World σ) (id : ResourceId) (correlation : String) :
    (m.cycle world id correlation).manager = m := rfl

@[simp] theorem world_cycle (m : Manager σ) (world : World σ) (id : ResourceId) (correlation : String) :
    (m.cycle world id correlation).world = world := rfl

def attempt (m : Manager σ) (world : World σ) (id : ResourceId) : Run σ (Except Stop Finished) := do
  let correlation ← Run.change world.correlate
  Reconcile.run (m.cycle world id correlation) id

def reconcile (m : Manager σ) (world : World σ) (id : ResourceId) : Run σ (Except Stop Outcome) := do
  let finished ← m.attempt world id
  Reconcile.finish m.controller finished

end Manager

end Reconciler
