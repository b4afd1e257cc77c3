import Mathlib.Algebra.Group.Nat.Defs
import Mathlib.Logic.Function.Iterate
import Reconciler.Proofs.Retrying.Course

set_option autoImplicit false

namespace Reconciler

open Retry

variable {σ : Type}

namespace Backoff

def capped (r : Retry) (k : Nat) : Duration :=
  Duration.min ⟨r.initialDelay.nanos * 2 ^ k⟩ r.maxDelay

def planned (r : Retry) : Nat → Duration
  | 0 => r.initialDelay
  | k + 1 => capped r (k + 1)

def delay? (attempts : List Attempt) (k : Nat) : Option Duration :=
  attempts[k]?.bind fun attempt => attempt.wait?.map (·.delay)

section

variable {r : Retry} {world : World σ} {id : ResourceId} {part : Part} {change : Workspace → σ → Workspace × σ}
variable {left : Nat} {delay : Duration} {s s' : σ} {visits : List (Visit σ)}
variable {result : Except Error (Option Workspace)}

theorem nanos_capped (r : Retry) (k : Nat) :
    (capped r k).nanos = min (r.initialDelay.nanos * 2 ^ k) r.maxDelay.nanos := rfl

theorem nanos_nextDelay (r : Retry) (delay : Duration) :
    (r.nextDelay delay).nanos = min (delay.nanos * 2) r.maxDelay.nanos := rfl

theorem eq_iff_nanos (a b : Duration) : a = b ↔ a.nanos = b.nanos := by
  cases a; cases b; simp

theorem nextDelay_capped (r : Retry) (k : Nat) : r.nextDelay (capped r k) = capped r (k + 1) := by
  rw [eq_iff_nanos, nanos_nextDelay, nanos_capped, nanos_capped, Nat.pow_succ, ← Nat.mul_assoc]
  -- What the bound has cut off would be cut off after doubling as well.
  omega

theorem nextDelay_planned (r : Retry) (k : Nat) : r.nextDelay (planned r k) = planned r (k + 1) := by
  cases k with
  | zero => rfl
  | succ k => exact nextDelay_capped r (k + 1)

theorem iterate_nextDelay (r : Retry) (k : Nat) : r.nextDelay^[k] r.initialDelay = planned r k := by
  induction k with
  | zero => rfl
  | succ k ih => rw [Function.iterate_succ_apply', ih, nextDelay_planned]

theorem delay?_of_tries (tries : Tries r world id part change left delay s visits result s') (k : Nat) :
    delay? (visits.map (·.attempt)) k = if k + 1 < visits.length then some (r.nextDelay^[k] delay) else none := by
  induction tries generalizing k with
  | last _ unwaited _ => cases k <;> simp [delay?, unwaited]
  | again _ _ waits same _ tries ih =>
      cases k with
      | zero => simp [delay?, waits, same, tries.length_pos]
      | succ k => simpa [delay?] using ih k

theorem capped_le (r : Retry) (k : Nat) : capped r k ≤ r.maxDelay :=
  Nat.min_le_right ..

theorem capped_le_capped (r : Retry) (k : Nat) : capped r k ≤ capped r (k + 1) := by
  show (capped r k).nanos ≤ (capped r (k + 1)).nanos
  rw [nanos_capped, nanos_capped, Nat.pow_succ, ← Nat.mul_assoc]
  omega

theorem capped_zero_iff (r : Retry) : r.initialDelay = capped r 0 ↔ r.initialDelay ≤ r.maxDelay := by
  show _ ↔ r.initialDelay.nanos ≤ r.maxDelay.nanos
  rw [eq_iff_nanos, nanos_capped]
  omega

theorem le_capped_one_iff (r : Retry) : r.initialDelay ≤ capped r 1 ↔ r.initialDelay ≤ r.maxDelay := by
  show r.initialDelay.nanos ≤ (capped r 1).nanos ↔ r.initialDelay.nanos ≤ r.maxDelay.nanos
  rw [nanos_capped]
  omega

end

/-- Between two attempts there is a delay. From the second on it is the doubled one within the bound, so that it never
decreases; the first is that, and not above the next one, exactly if it is not above the bound itself. -/
theorem capped_from_the_second (r : Retry) (world : World σ) (id : ResourceId) (part : Part)
    (change : Workspace → σ → Workspace × σ) (s : σ) :
    let attempts := (r.run world id part change s).attempts
    (∀ k, (delay? attempts k).isSome = true ↔ k + 1 < attempts.length) ∧
    (∀ k delay, delay? attempts (k + 1) = some delay →
      delay = capped r (k + 1) ∧ delay ≤ r.maxDelay ∧ ∀ next, delay? attempts (k + 2) = some next → delay ≤ next) ∧
    ∀ delay, delay? attempts 0 = some delay →
      delay = r.initialDelay ∧ (delay = capped r 0 ↔ r.initialDelay ≤ r.maxDelay) ∧
        (delay ≤ r.maxDelay ↔ r.initialDelay ≤ r.maxDelay) ∧
        ∀ next, delay? attempts 1 = some next → (delay ≤ next ↔ r.initialDelay ≤ r.maxDelay) := by
  intro attempts
  obtain ⟨visits, same, tries⟩ := run_tries r world id part change s
  have delays (k : Nat) : delay? attempts k = if k + 1 < attempts.length then some (planned r k) else none := by
    have made := delay?_of_tries tries k
    rw [iterate_nextDelay, ← List.length_map (·.attempt), same] at made
    exact made
  have eq_planned {k : Nat} {delay : Duration} (there : delay? attempts k = some delay) : delay = planned r k := by
    rw [delays] at there
    simpa using (Option.ite_none_right_eq_some.mp there).2.symm
  refine ⟨fun k => by simp [delays], fun k delay there => ?_, fun delay there => ?_⟩
  · obtain rfl := eq_planned there
    refine ⟨rfl, capped_le .., fun next after => ?_⟩
    obtain rfl := eq_planned after
    exact capped_le_capped ..
  · obtain rfl := eq_planned there
    refine ⟨rfl, capped_zero_iff r, .rfl, fun next after => ?_⟩
    obtain rfl := eq_planned after
    exact le_capped_one_iff r

section

def stale : Error :=
  .client (.api ⟨"Failure", "changed meanwhile", "Conflict", 409⟩)

def nobody : ResourceId :=
  ⟨"", ""⟩

def busy : Retry.World Unit where
  get _ _ := .done (.ok (some default)) ()
  update _ _ := .done (.error stale) ()
  updateStatus _ _ := .done (.error stale) ()
  draw _ := (least, ())
  sleep _ _ := ()

def hasty : Retry :=
  ⟨4, .ofSeconds 3, .ofSeconds 2⟩

theorem capped_from_the_second_busy :
    let attempts := (hasty.run busy nobody .metadata (fun w s => (w, s)) ()).attempts
    (List.range 4).map (delay? attempts) = [some (.ofSeconds 3), some (.ofSeconds 2), some (.ofSeconds 2), none] ∧
      Duration.ofSeconds 2 = capped hasty 1 ∧ Duration.ofSeconds 2 = capped hasty 2 ∧
      ¬Duration.ofSeconds 3 = capped hasty 0 ∧ ¬Duration.ofSeconds 3 ≤ hasty.maxDelay := by
  intro attempts
  have delays : (List.range 4).map (delay? attempts) =
      [some (.ofSeconds 3), some (.ofSeconds 2), some (.ofSeconds 2), none] := by
    decide +kernel
  obtain ⟨_, later, first⟩ :=
    capped_from_the_second hasty busy nobody .metadata (fun w s => (w, s)) ()
  obtain ⟨_, capped, bounded, _⟩ := first (.ofSeconds 3) (by decide +kernel)
  exact ⟨delays, (later 0 (.ofSeconds 2) (by decide +kernel)).1, (later 1 (.ofSeconds 2) (by decide +kernel)).1,
    mt capped.mp (by decide), mt bounded.mp (by decide)⟩

end

end Backoff

end Reconciler
