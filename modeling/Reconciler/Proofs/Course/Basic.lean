import Reconciler.Reconcile.Basic

set_option autoImplicit false

namespace Reconciler

variable {σ : Type}

-- Why the status is written decides what comes after it, and which error counts.
inductive Verdict where
  | outcome (outcome : Outcome)
  | failure (error : Error)

inductive Purpose (σ : Type) where
  | register (s : Subroutine σ) (todo : List (Subroutine σ)) (outcome : Outcome)
  | release (s : Subroutine σ) (todo : List (Subroutine σ)) (outcome : Outcome)
      (result : Except OperatorError Outcome)
  | unlabel (outcome : Outcome)

-- Where a reconcile stands between two events.
inductive Stage (σ : Type) where
  | opening
  | sweeping (todo : List (Subroutine σ)) (outcome : Outcome)
  | turning (s : Subroutine σ) (todo : List (Subroutine σ)) (outcome : Outcome)
  | stepping (phase : Phase) (s : Subroutine σ) (todo : List (Subroutine σ)) (outcome : Outcome)
  | cleaned (s : Subroutine σ) (todo : List (Subroutine σ)) (outcome : Outcome)
      (result : Except OperatorError Outcome)
  | settled (s : Subroutine σ) (todo : List (Subroutine σ)) (outcome : Outcome)
      (result : Except OperatorError Outcome)
  | writing (purpose : Purpose σ)
  | failed (subroutine : String) (error : Error)
  | persisting (verdict : Verdict)
  | unlabelling (outcome : Outcome)
  | reporting (error : Error) (next : Stage σ)
  | ended (result : Except Stop Finished)

namespace Stage

def breakdown (subroutine : String) (error : Error) : Stage σ :=
  if error = .cancelled then .ended (.error (.error .cancelled)) else .failed subroutine error

def afterStep (phase : Phase) (s : Subroutine σ) (todo : List (Subroutine σ)) (outcome : Outcome)
    (result : Except OperatorError Outcome) : Stage σ :=
  match phase with
  | .process => .settled s todo outcome result
  | .finalize => .cleaned s todo outcome result

end Stage

namespace Purpose

def next : Purpose σ → Stage σ
  | register s todo outcome => .stepping .process s todo outcome
  | release s todo outcome result => .settled s todo outcome result
  | unlabel outcome => .ended (.ok (.reconciled outcome))

def refused : Purpose σ → Error → Stage σ
  | register s _ _, error => .breakdown s.name error
  | release s _ _ _, error => .breakdown s.name error
  | unlabel _, error => .ended (.error (.error error))

end Purpose

namespace Verdict

def next : Verdict → Stage σ
  | outcome o => .unlabelling o
  | failure error => .ended (.error (.error error))

def error : Verdict → Error → Error
  | outcome _, error => error
  | failure first, _ => first

end Verdict

-- A write has found nothing, because the store let go of the resource with its last finalizer.
structure Vanished (w : Workspace) (error : Error) : Prop where
  missing : ∃ failure, error = .client (.api failure) ∧ failure.code = 404
  deleted : w.isBeingDeleted = true
  bare : w.finalizers = []

theorem isNotFound_iff {error : Error} :
    error.isNotFound = true ↔ ∃ failure, error = .client (.api failure) ∧ failure.code = 404 := by
  rcases error with (failure | _ | _ | _ | _ | _) | _ | _ | _ | _ <;>
    simp [Error.isNotFound, Error.apiCode?, ClientError.code?]

theorem isGone_iff {w : Workspace} {error : Error} : Cycle.isGone w error = true ↔ Vanished w error := by
  simp only [Cycle.isGone, Bool.and_eq_true, isNotFound_iff, List.isEmpty_iff]
  exact ⟨fun ⟨⟨missing, deleted⟩, bare⟩ => ⟨missing, deleted, bare⟩,
    fun ⟨missing, deleted, bare⟩ => ⟨⟨missing, deleted⟩, bare⟩⟩

theorem not_vanished_cancelled (w : Workspace) : ¬Vanished w .cancelled := by
  rintro ⟨⟨_, ⟨⟩, _⟩, _, _⟩

instance (w : Workspace) (error : Error) : Decidable (Vanished w error) :=
  decidable_of_iff (Cycle.isGone w error = true) isGone_iff

open Reconcile in
-- `now` and `fetched` are what the clock and the store will say; before the store has answered they bind nothing.
inductive Course (c : Cycle σ) (id : ResourceId) (now : Timestamp) (fetched : Workspace) (start : σ) :
    List (Moment σ) → Stage σ → Workspace → σ → Prop where
  | start : Course c id now fetched start [] .opening fetched start
  | note {t stage w s} (record : Log.Record) :
      Course c id now fetched start t stage w s →
      Course c id now fetched start (t ++ [⟨.logged record, s, s⟩]) stage w s
  | unread {t w s answer piece s' error} :
      Course c id now fetched start t .opening w s →
      Run.Asked c.world.cancelled (c.world.get id) (.fetched id) s answer piece s' →
      answer.getD (.error .cancelled) = .error error →
      Course c id now fetched start (t ++ piece) (.reporting error (.ended (.error (.error error)))) w s'
  | absent {t w s piece s'} :
      Course c id now fetched start t .opening w s →
      Run.Asked c.world.cancelled (c.world.get id) (.fetched id) s (some (.ok none)) piece s' →
      Course c id now fetched start (t ++ piece) (.ended (.ok .notFound)) w s'
  | skip {t w s piece s' remaining} :
      Course c id now fetched start t .opening w s →
      Run.Asked c.world.cancelled (c.world.get id) (.fetched id) s (some (.ok (some fetched))) piece s' →
      now = c.world.now s' → skips c now fetched = some remaining →
      Course c id now fetched start (t ++ piece) (.ended (.ok (.skipped (.requeueAfter remaining)))) w s'
  | fetch {t w s piece s'} :
      Course c id now fetched start t .opening w s →
      Run.Asked c.world.cancelled (c.world.get id) (.fetched id) s (some (.ok (some fetched))) piece s' →
      now = c.world.now s' → skips c now fetched = none →
      Course c id now fetched start (t ++ piece) (.sweeping c.manager.subroutines .done)
        (c.amend (Ledger.setUnknownIfAbsent now) fetched) s'
  | stop {t sub todo outcome w s} :
      Course c id now fetched start t (.sweeping (sub :: todo) outcome) w s →
      c.world.cancelled s = true →
      Course c id now fetched start t (.ended (.error (.error .cancelled))) w s
  | pass {t sub todo outcome w s} :
      Course c id now fetched start t (.sweeping (sub :: todo) outcome) w s →
      c.world.cancelled s = false → Sweep.isSkipped fetched.phase sub w = true →
      Course c id now fetched start t (.sweeping todo outcome) w s
  | enter {t sub todo outcome w s} :
      Course c id now fetched start t (.sweeping (sub :: todo) outcome) w s →
      c.world.cancelled s = false → Sweep.isSkipped fetched.phase sub w = false →
      Course c id now fetched start t (.turning sub todo outcome)
        (c.amend (Ledger.processing now sub.name fetched.phase) w) s
  | condemned {t sub todo outcome w s} :
      Course c id now fetched start t (.turning sub todo outcome) w s →
      w.isBeingDeleted = true →
      Course c id now fetched start t (.stepping .finalize sub todo outcome) w s
  | equipped {t sub todo outcome w s} :
      Course c id now fetched start t (.turning sub todo outcome) w s →
      w.isBeingDeleted = false → (w.register sub.finalizers).2 = false →
      Course c id now fetched start t (.stepping .process sub todo outcome) (w.register sub.finalizers).1 s
  | register {t sub todo outcome w s} :
      Course c id now fetched start t (.turning sub todo outcome) w s →
      w.isBeingDeleted = false → (w.register sub.finalizers).2 = true →
      Course c id now fetched start t (.writing (.register sub todo outcome)) (w.register sub.finalizers).1 s
  | step {t phase sub todo outcome w s answer piece s'} :
      Course c id now fetched start t (.stepping phase sub todo outcome) w s →
      Run.Asked c.world.cancelled (sub.step phase w) (.stepped sub.name phase w) s (some answer) piece s' →
      Course c id now fetched start (t ++ piece) (.afterStep phase sub todo outcome answer.result)
        answer.workspace s'
  | drop {t phase sub todo outcome w s piece s'} :
      Course c id now fetched start t (.stepping phase sub todo outcome) w s →
      Run.Asked c.world.cancelled (sub.step phase w) (.stepped sub.name phase w) s none piece s' →
      Course c id now fetched start (t ++ piece) (.ended (.error (.error .cancelled))) w s'
  | keep {t sub todo outcome result w s} :
      Course c id now fetched start t (.cleaned sub todo outcome result) w s →
      (w.releaseIfIdle sub.finalizers result).2 = false →
      Course c id now fetched start t (.settled sub todo outcome result)
        (w.releaseIfIdle sub.finalizers result).1 s
  | release {t sub todo outcome result w s} :
      Course c id now fetched start t (.cleaned sub todo outcome result) w s →
      (w.releaseIfIdle sub.finalizers result).2 = true →
      Course c id now fetched start t (.writing (.release sub todo outcome result))
        (w.releaseIfIdle sub.finalizers result).1 s
  | written {t purpose w s stored piece s'} :
      Course c id now fetched start t (.writing purpose) w s →
      Run.Asked c.world.cancelled (c.world.update w) (.updated w) s (some (.ok stored)) piece s' →
      Course c id now fetched start (t ++ piece) purpose.next (w.adoptVersion stored) s'
  | unwritten {t purpose w s answer piece s' error} :
      Course c id now fetched start t (.writing purpose) w s →
      Run.Asked c.world.cancelled (c.world.update w) (.updated w) s answer piece s' →
      answer.getD (.error .cancelled) = .error error →
      Course c id now fetched start (t ++ piece) (.reporting error (purpose.refused error)) w s'
  | complete {t sub todo outcome result w s} :
      Course c id now fetched start t (.settled sub todo outcome (.ok result)) w s →
      Course c id now fetched start t (.sweeping todo (outcome.merge result))
        (if result.isDone then c.amend (Ledger.complete now sub.name fetched.phase) w else w) s
  | fail {t sub todo outcome failure w s} :
      Course c id now fetched start t (.settled sub todo outcome (.error failure)) w s →
      Course c id now fetched start
        (t ++ [⟨.counted (.stepFailed c.manager.controller sub.name failure.retry), s, s⟩])
        (.reporting (.subroutine sub.name failure) (.failed sub.name (.subroutine sub.name failure))) w s
  | report {t error next w s} :
      Course c id now fetched start t (.reporting error next) w s → error.shouldReport = true →
      Course c id now fetched start
        (t ++ [⟨.reported error c.tags, s, (c.world.capture error c.tags s).2⟩]) next w
        (c.world.capture error c.tags s).2
  | conceal {t error next w s} :
      Course c id now fetched start t (.reporting error next) w s → error.shouldReport = false →
      Course c id now fetched start t next w s
  | abort {t subroutine error w s} :
      Course c id now fetched start t (.failed subroutine error) w s →
      Course c id now fetched start t (.persisting (.failure error))
        (c.amend (Ledger.setReadyError now error.failureMessage)
          (c.amend (Ledger.failed now subroutine fetched.phase error.failureMessage) w)) s
  | conclude {t outcome w s} :
      Course c id now fetched start t (.sweeping [] outcome) w s → schedules c fetched.phase outcome = false →
      Course c id now fetched start t (.persisting (.outcome outcome))
        (c.amend (Ledger.setReady now (if outcome.isDone then .true else .false)) w) s
  | schedule {t outcome w s scheduled} :
      Course c id now fetched start t (.sweeping [] outcome) w s → schedules c fetched.phase outcome = true →
      Spread.scheduleNext? w now (c.world.draw s).1 = some scheduled →
      Course c id now fetched start t (.persisting (.outcome outcome))
        (c.amend (Ledger.setReady now .true) scheduled) (c.world.draw s).2
  | beyond {t outcome w s} :
      Course c id now fetched start t (.sweeping [] outcome) w s → schedules c fetched.phase outcome = true →
      Spread.scheduleNext? w now (c.world.draw s).1 = none →
      Course c id now fetched start t (.ended (.error .beyondCalendar)) w (c.world.draw s).2
  | unchanged {t verdict w s} :
      Course c id now fetched start t (.persisting verdict) w s →
      w.currentStatus = fetched.currentStatus →
      Course c id now fetched start t verdict.next w s
  | persist {t verdict w s stored piece s'} :
      Course c id now fetched start t (.persisting verdict) w s →
      w.currentStatus ≠ fetched.currentStatus →
      Run.Asked c.world.cancelled (c.world.updateStatus w) (.statusUpdated w) s (some (.ok stored)) piece s' →
      Course c id now fetched start (t ++ piece) verdict.next (w.adoptVersion stored) s'
  | vanish {t verdict w s answer piece s' error} :
      Course c id now fetched start t (.persisting verdict) w s →
      w.currentStatus ≠ fetched.currentStatus →
      Run.Asked c.world.cancelled (c.world.updateStatus w) (.statusUpdated w) s answer piece s' →
      answer.getD (.error .cancelled) = .error error → Vanished w error →
      Course c id now fetched start (t ++ piece) verdict.next w s'
  | refuse {t verdict w s answer piece s' error} :
      Course c id now fetched start t (.persisting verdict) w s →
      w.currentStatus ≠ fetched.currentStatus →
      Run.Asked c.world.cancelled (c.world.updateStatus w) (.statusUpdated w) s answer piece s' →
      answer.getD (.error .cancelled) = .error error → ¬Vanished w error →
      Course c id now fetched start (t ++ piece)
        (.reporting error (.ended (.error (.error (verdict.error error))))) w s'
  | finish {t outcome w s} :
      Course c id now fetched start t (.unlabelling outcome) w s → unlabels c fetched.phase w = false →
      Course c id now fetched start t (.ended (.ok (.reconciled outcome))) w s
  | unlabel {t outcome w s} :
      Course c id now fetched start t (.unlabelling outcome) w s → unlabels c fetched.phase w = true →
      Course c id now fetched start t (.writing (.unlabel outcome)) (Spread.clearRefreshMarker w).1 s

end Reconciler
