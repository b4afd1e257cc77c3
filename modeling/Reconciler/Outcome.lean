import Reconciler.Time.Duration

set_option autoImplicit false

namespace Reconciler

structure Outcome where
  requeue : Bool
  after : Duration
  deriving DecidableEq, Repr

inductive Action where
  | awaitChange
  | requeue (after : Duration)
  deriving DecidableEq, Repr

namespace Outcome

def done : Outcome := ⟨false, .zero⟩

def requeueNow : Outcome := ⟨true, .zero⟩

def requeueAfter (after : Duration) : Outcome := ⟨false, after⟩

def isDone (o : Outcome) : Bool :=
  !o.requeue && o.after.isZero

def merge (o other : Outcome) : Outcome where
  requeue := o.requeue || other.requeue
  after :=
    -- Zero is no delay, so it never counts as the shortest.
    if !other.after.isZero && (o.after.isZero || other.after < o.after) then other.after else o.after

def action (o : Outcome) : Action :=
  if o.requeue then .requeue .zero
  else if !o.after.isZero then .requeue o.after
  else .awaitChange

@[simp] theorem isDone_done : done.isDone = true := rfl
@[simp] theorem action_done : done.action = .awaitChange := rfl

theorem isDone_merge (o other : Outcome) : (o.merge other).isDone = (o.isDone && other.isDone) := by
  -- The shortest delay is zero only if there is none.
  have after : (o.merge other).after.isZero = (o.after.isZero && other.after.isZero) := by
    unfold merge
    rcases zero : other.after.isZero with _ | _
    · rcases mine : o.after.isZero with _ | _
      · by_cases less : other.after < o.after <;> simp [zero, mine, less]
      · simp [zero]
    · simp
  simp only [isDone, after]
  simp only [merge, Bool.not_or]
  grind

end Outcome

end Reconciler
