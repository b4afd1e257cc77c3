import Reconciler.Proofs.Requeue

set_option autoImplicit false

namespace Reconciler

open Reconcile

variable {σ : Type}

namespace SkipDecision

-- The leap second at the end of a day reaches as far as that time in the first second of the next day.
structure Reaches (now next : Timestamp) : Prop where
  last : now.second = 86399
  tomorrow : next.day = now.day + 1
  first : next.second = 0
  leap : Duration.perSecond + next.nano ≤ now.nano

def Unobserved (w : Workspace) : Prop :=
  w.currentStatus.observedGeneration ≠ some (w.metadata.generation.getD 0)

def Ahead (w : Workspace) (now : Timestamp) : Prop :=
  ∃ next, w.currentStatus.nextReconcile = some next ∧ now.before next = true

def Overtaken (w : Workspace) (now : Timestamp) : Prop :=
  ∃ next, w.currentStatus.nextReconcile = some next ∧ Reaches now next

section

variable {w : Workspace} {now next : Timestamp} {d : Duration}

theorem reaches_iff : Reaches now next ↔
    now.second = 86399 ∧ next.day = now.day + 1 ∧ next.second = 0 ∧ Duration.perSecond + next.nano ≤ now.nano :=
  ⟨fun ⟨last, tomorrow, first, leap⟩ => ⟨last, tomorrow, first, leap⟩,
    fun ⟨last, tomorrow, first, leap⟩ => ⟨last, tomorrow, first, leap⟩⟩

theorem since_pos_iff (ahead : now.before next = true) : 0 < next.since now ↔ ¬Reaches now next := by
  obtain ⟨-, -, within, fine, minute⟩ := id now.valid
  obtain ⟨-, -, within', fine', minute'⟩ := id next.valid
  simp only [Timestamp.before, Bool.or_eq_true, Bool.and_eq_true, decide_eq_true_eq] at ahead
  rw [reaches_iff]
  simp only [Timestamp.since, Timestamp.inLeapSecond, Bool.and_eq_true, decide_eq_true_eq]
  unfold Duration.perSecond Timestamp.secondsPerDay at *
  -- Whether a leap second lies between is told by the seconds of the day alone, whatever the days are.
  split
  · omega
  · split <;> omega

theorem before_of_reaches (reaches : Reaches now next) : now.before next = true := by
  simp only [Timestamp.before, Bool.or_eq_true, decide_eq_true_eq]
  have := reaches.tomorrow
  omega

theorem windowOpen_iff : Spread.windowOpen w now = true ↔ Ahead w now := by
  unfold Spread.windowOpen Ahead
  cases w.currentStatus.nextReconcile <;> simp

theorem generationObserved_iff : Spread.generationObserved w = false ↔ Unobserved w := by
  simp [Spread.generationObserved, Unobserved, Workspace.generation]

theorem shouldSkip_eq_none_iff :
    Spread.shouldSkip w now = none ↔ Spread.hasRefreshMarker w = true ∨ Unobserved w ∧ ¬Ahead w now := by
  rw [← windowOpen_iff, ← generationObserved_iff]
  unfold Spread.shouldSkip
  cases Spread.hasRefreshMarker w <;> cases Spread.generationObserved w <;> cases Spread.windowOpen w now <;> simp

theorem ahead_of_overtaken (overtaken : Overtaken w now) : Ahead w now ∧ now.inLeapSecond = true := by
  obtain ⟨next, due, reaches⟩ := overtaken
  exact ⟨⟨next, due, before_of_reaches reaches⟩, decide_eq_true (Nat.le_of_add_right_le reaches.leap)⟩

theorem isZero_remaining_iff (ahead : Ahead w now) : (Spread.remaining w now).isZero = true ↔ Overtaken w now := by
  obtain ⟨next, due, later⟩ := ahead
  have overtaken : Overtaken w now ↔ ¬0 < next.since now := by
    rw [since_pos_iff later, not_not]
    simp [Overtaken, due]
  rw [overtaken, Spread.remaining, due, Option.bind_some, Timestamp.since?]
  by_cases backwards : 0 ≤ next.since now
  · simp [backwards, Duration.isZero]
  · simp [backwards]
    omega

theorem isZero_of_skipped (skipped : Spread.shouldSkip w now = some d) (unobserved : Unobserved w) :
    d.isZero = true ↔ Overtaken w now := by
  have ahead : Ahead w now := by
    by_contra past
    have forced := shouldSkip_eq_none_iff.mpr (.inr ⟨unobserved, past⟩)
    simp [skipped] at forced
  have same : d = Spread.remaining w now := by
    unfold Spread.shouldSkip at skipped
    split at skipped
    · simp at skipped
    · split at skipped
      · simp at skipped
      · exact (Option.some.inj skipped).symm
  rw [same, isZero_remaining_iff ahead]

end

section

variable {m : Manager σ} {world : World σ} {settings : Controller.Settings} {asked w : Workspace} {s : σ}
variable {read : Moment σ} {d : Duration}

theorem value_of_skips (found : Finds asked.id (m.reconcile world asked.id s).trace read w)
    (skipped : skips (m.cycle world asked.id (world.correlate s).1) (world.now read.after) w = some d) :
    (Controller.attend m world settings asked s).value = some (Outcome.requeueAfter d).action := by
  obtain ⟨now, fetched, came, decides⟩ := Requeue.attempt_came m world asked.id s
  obtain ⟨same, result⟩ := decides read w found
  obtain ⟨outcome, ended⟩ := result.mpr (Option.isSome_of_mem (same.symm.trans skipped))
  rw [Requeue.value_attend]
  rw [ended] at came ⊢
  cases came with
  | skipped _ due =>
      obtain rfl := Option.some.inj (due.symm.trans (same.symm.trans skipped))
      rfl

end

/-- A reconcile is skipped unless the label asks for it or a generation that has not been observed is due. If one that
has not been observed is skipped, then for some time, after which the controller comes back, except from a leap second
at the end of a day that reaches as far as the time that is ahead: then it is skipped for no time at all, and the
controller waits for a change. -/
theorem parked_from_leap_seconds_only (w : Workspace) (now : Timestamp) :
    (Spread.shouldSkip w now = none ↔ Spread.hasRefreshMarker w = true ∨ Unobserved w ∧ ¬Ahead w now) ∧
      (Overtaken w now → Ahead w now ∧ now.inLeapSecond = true) ∧
      ∀ d, Spread.shouldSkip w now = some d → Unobserved w →
        (d.isZero = true ↔ Overtaken w now) ∧
          ∀ (m : Manager σ) (world : World σ) (settings : Controller.Settings) (asked : Workspace) (s : σ)
            (read : Moment σ), m.spread = true → w.isBeingDeleted = false →
            Finds asked.id (m.reconcile world asked.id s).trace read w → world.now read.after = now →
            ((Controller.attend m world settings asked s).value = some (.requeue d) ↔ ¬Overtaken w now) ∧
              ((Controller.attend m world settings asked s).value = some .awaitChange ↔ Overtaken w now) := by
  refine ⟨shouldSkip_eq_none_iff, ahead_of_overtaken, fun d skipped unobserved => ?_⟩
  have zero := isZero_of_skipped skipped unobserved
  refine ⟨zero, fun m world settings asked s read spread live found same => ?_⟩
  subst same
  have skips : skips (m.cycle world asked.id (world.correlate s).1) (world.now read.after) w = some d := by
    simp [skips, spread, live, skipped]
  rw [value_of_skips found skips, ← zero]
  rcases none : d.isZero <;> simp [Outcome.action, Outcome.requeueAfter, none]

section

open Reconciler.Shelf

def revised : Workspace where
  metadata := { web.metadata with generation := some 3, resourceVersion := some "1" }
  spec := web.spec
  status := some { observedGeneration := some 2, nextReconcile := some nextDay }

def spreading : Manager (Shelf site) where
  operator := "converge"
  controller := "workspaces"
  subroutines := [worker "dns" [] leave leave]
  spread := true
  faultless := by decide

def settings : Controller.Settings :=
  ⟨.ofMinutes 1, 1, "", .ofMinutes 60⟩

def evening : Timestamp := ⟨0, 82800, 0, by decide⟩

def lastLeap : Timestamp := ⟨0, 86399, 1500000000, by decide⟩

def attended (now : Timestamp) : Ran (Shelf site) (Option Action) :=
  Controller.attend spreading (world site) settings revised (stocked revised [] now)

def reconciled (now : Timestamp) : Ran (Shelf site) (Except Stop Outcome) :=
  spreading.reconcile (world site) site (stocked revised [] now)

theorem parked_from_leap_seconds_only_midnight :
    (Ahead revised lastLeap ∧ lastLeap.inLeapSecond = true) ∧
      (attended evening).value = some (.requeue (.ofMinutes 60)) ∧
      (attended lastLeap).value = some .awaitChange := by
  have unobserved : Unobserved revised := by simp [Unobserved, revised, Workspace.currentStatus]
  have before : ¬Overtaken revised evening := by
    rintro ⟨next, _, reaches⟩
    exact absurd reaches.last (by decide)
  have during : Overtaken revised lastLeap := ⟨nextDay, rfl, rfl, rfl, rfl, by decide⟩
  have early : Finds site (reconciled evening).trace ((reconciled evening).trace.get ⟨1, by decide +kernel⟩) revised :=
    finds_get (by decide +kernel)
  have late : Finds site (reconciled lastLeap).trace ((reconciled lastLeap).trace.get ⟨1, by decide +kernel⟩) revised :=
    finds_get (by decide +kernel)
  obtain ⟨_, _, waits⟩ := parked_from_leap_seconds_only (σ := Shelf site) revised evening
  obtain ⟨_, ahead, parks⟩ := parked_from_leap_seconds_only (σ := Shelf site) revised lastLeap
  have hour := (waits (.ofMinutes 60) (by decide +kernel) unobserved).2
  have never := (parks .zero (by decide +kernel) unobserved).2
  exact ⟨ahead during,
    (hour spreading (world site) settings revised _ _ rfl rfl early (by decide +kernel)).1.mpr before,
    (never spreading (world site) settings revised _ _ rfl rfl late (by decide +kernel)).2.mpr during⟩

end

end SkipDecision

end Reconciler
