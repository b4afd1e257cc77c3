import Mathlib.Algebra.GroupWithZero.Nat
import Reconciler.Proofs.Reporting
import Reconciler.Proofs.Requeue

set_option autoImplicit false

namespace Reconciler

open Reconcile

variable {σ : Type}

namespace Metric

def total (p : Metric → Bool) (metrics : List Metric) : Nat :=
  (((tally metrics).filter (p ·.1)).map (·.2)).sum

theorem sum_add (p : Metric → Bool) (metric : Metric) (rows : List (Metric × Nat)) :
    (((tally.add metric rows).filter (p ·.1)).map (·.2)).sum =
      ((rows.filter (p ·.1)).map (·.2)).sum + if p metric then 1 else 0 := by
  induction rows with
  | nil => by_cases counted : p metric = true <;> simp [tally.add, counted]
  | cons row rest ih =>
      obtain ⟨other, n⟩ := row
      by_cases same : metric = other
      · subst same
        by_cases counted : p metric = true
        · simp [tally.add, counted]
          omega
        · simp [tally.add, counted]
      · by_cases counted : p other = true
        · simp [tally.add, same, counted, ih]
          omega
        · simp [tally.add, same, counted, ih]

theorem total_eq_countP (p : Metric → Bool) (metrics : List Metric) : total p metrics = metrics.countP p := by
  induction metrics with
  | nil => rfl
  | cons metric rest ih => rw [total, tally, sum_add, ← total, ih, List.countP_cons]

end Metric

def Event.read? (id : ResourceId) : Event → Option (Option Workspace)
  | fetched other (some (.ok found)) => if other = id then some found else none
  | _ => none

def Event.failedStep? : Event → Option (String × Bool)
  | stepped subroutine _ _ (some answer) =>
      match answer.result with
      | .error failure => some (subroutine, failure.retry)
      | .ok _ => none
  | _ => none

def counted (t : List (Moment σ)) : List Metric :=
  (t.map (·.event)).filterMap Event.metric?

def read? (world : World σ) (id : ResourceId) (t : List (Moment σ)) : Option (Option Workspace × Timestamp) :=
  t.findSome? fun moment => (moment.event.read? id).map fun found => (found, world.now moment.after)

def stepFailures (controller : String) (events : List Event) : List Metric :=
  (events.filterMap Event.failedStep?).map fun failure => .stepFailed controller failure.1 failure.2

def Stage.uncounted (controller : String) : Stage σ → List Metric
  | cleaned s _ _ (.error failure) | settled s _ _ (.error failure) =>
      [.stepFailed controller s.name failure.retry]
  | reporting _ next => next.uncounted controller
  | _ => []

namespace Counting

structure Visit (σ : Type) where
  world : World σ
  id : ResourceId
  state : σ

namespace Visit

def ran (m : Manager σ) (v : Visit σ) : Ran σ (Except Stop Outcome) :=
  m.reconcile v.world v.id v.state

def cycle (m : Manager σ) (v : Visit σ) : Cycle σ :=
  m.cycle v.world v.id (v.world.correlate v.state).1

def ends (m : Manager σ) (v : Visit σ) : Bool :=
  match (v.ran m).value with
  | .error .beyondCalendar => false
  | _ => true

def ending? (m : Manager σ) (v : Visit σ) : Option Ending :=
  match (v.ran m).value, read? v.world v.id (v.ran m).trace with
  | .error .beyondCalendar, _ => none
  | .error (.error _), _ => some .error
  | .ok _, none => none
  | .ok _, some (none, _) => some .notFound
  | .ok outcome, some (some w, now) =>
      -- A reconcile that was skipped may ask for nothing, as one that is done.
      if (skips (v.cycle m) now w).isSome then some .skipped
      else if outcome.isDone then some .success
      else some .requeue

end Visit

section

variable {c : Cycle σ} {id : ResourceId} {now : Timestamp} {fetched : Workspace} {start s s' : σ}
variable {t piece : List (Moment σ)} {moment : Moment σ} {w : Workspace} {stage next : Stage σ}

section

variable {α : Type} {stop : σ → Bool} {call : σ → Call σ α} {event : Option α → Event} {answer : Option α}
variable {controller : String}

theorem counted_asked (asked : Run.Asked stop call event s answer piece s')
    (silent : ∀ a, (event a).metric? = none) : counted (t ++ piece) = counted t := by
  rcases asked.ends with ⟨_, rfl, _⟩ | ⟨rfl, _⟩
  · simp
  · simp [counted, silent]

theorem stepFailures_asked (asked : Run.Asked stop call event s answer piece s')
    (call? : ∀ a, (event a).isCall = true) (fine : (event none).failedStep? = none) :
    stepFailures controller (calls (t ++ piece)) =
      stepFailures controller (calls t) ++ stepFailures controller [event answer] := by
  rcases asked.ends with ⟨rfl, rfl, _⟩ | ⟨rfl, _⟩
  · simp [stepFailures, fine]
  · simp [stepFailures, calls, call?]

theorem uncounted_breakdown (subroutine : String) (error : Error) :
    (Stage.breakdown subroutine error : Stage σ).uncounted controller = [] := by
  unfold Stage.breakdown
  split <;> rfl

theorem uncounted_refused (purpose : Purpose σ) (error : Error) :
    (purpose.refused error).uncounted controller = [] := by
  cases purpose with
  | register | release => exact uncounted_breakdown ..
  | unlabel => rfl

theorem uncounted_verdict (verdict : Verdict) : (verdict.next : Stage σ).uncounted controller = [] := by
  cases verdict <;> rfl

theorem uncounted_next {purpose : Purpose σ} (course : Course c id now fetched start t (.writing purpose) w s) :
    purpose.next.uncounted controller = [] := by
  cases purpose with
  | register | unlabel => rfl
  | release =>
      obtain ⟨asked, rfl⟩ := Reporting.ok_of_release course
      rfl

end

def Balanced (c : Cycle σ) (t : List (Moment σ)) (stage : Stage σ) : Prop :=
  counted t ++ stage.uncounted c.manager.controller = stepFailures c.manager.controller (calls t)

theorem Balanced.alike (balanced : Balanced c t stage)
    (same : next.uncounted c.manager.controller = stage.uncounted c.manager.controller) : Balanced c t next := by
  rwa [Balanced, same]

theorem Balanced.quiet (balanced : Balanced c t stage) (uncalled : moment.event.isCall = false)
    (uncounted : moment.event.metric? = none) : Balanced c (t ++ [moment]) stage := by
  have same : counted (t ++ [moment]) = counted t := by simp [counted, uncounted]
  rwa [Balanced, same, calls_snoc_of_not uncalled]

theorem Balanced.asked {α : Type} {stop : σ → Bool} {call : σ → Call σ α} {event : Option α → Event}
    {answer : Option α} (balanced : Balanced c t stage) (none : stage.uncounted c.manager.controller = [])
    (asked : Run.Asked stop call event s answer piece s') (call? : ∀ a, (event a).isCall = true)
    (fine : (event .none).failedStep? = .none)
    (owed : next.uncounted c.manager.controller = stepFailures c.manager.controller [event answer]) :
    Balanced c (t ++ piece) next := by
  have silent (a : Option α) : (event a).metric? = .none := by
    have called := call? a
    cases made : event a <;> simp_all [Event.isCall, Event.metric?]
  unfold Balanced at balanced ⊢
  rw [none, List.append_nil] at balanced
  rw [counted_asked asked silent, stepFailures_asked asked call? fine, owed, balanced]

theorem balanced_of_course (course : Course c id now fetched start t stage w s) : Balanced c t stage := by
  induction course with
  | start => rfl
  | note _ _ ih => exact ih.quiet rfl rfl
  | unread _ asked _ ih => exact ih.asked rfl asked (fun _ => rfl) rfl rfl
  | absent _ asked ih => exact ih.asked rfl asked (fun _ => rfl) rfl rfl
  | skip _ asked _ _ ih => exact ih.asked rfl asked (fun _ => rfl) rfl rfl
  | fetch _ asked _ _ ih => exact ih.asked rfl asked (fun _ => rfl) rfl rfl
  | @step _ phase sub _ _ _ _ answer _ _ _ asked ih =>
      refine ih.asked rfl asked (fun _ => rfl) rfl ?_
      rcases result : answer.result with failure | ask <;> cases phase <;>
        simp [Stage.afterStep, Stage.uncounted, stepFailures, Event.failedStep?, result]
  | drop _ asked ih => exact ih.asked rfl asked (fun _ => rfl) rfl rfl
  | written course asked ih =>
      exact ih.asked rfl asked (fun _ => rfl) rfl (uncounted_next course)
  | @unwritten _ purpose _ _ _ _ _ error _ asked _ ih =>
      exact ih.asked rfl asked (fun _ => rfl) rfl (uncounted_refused purpose error)
  | @fail t sub _ _ failure _ s _ ih =>
      have counts : counted (t ++ [⟨.counted (.stepFailed c.manager.controller sub.name failure.retry), s, s⟩]) =
          counted t ++ [.stepFailed c.manager.controller sub.name failure.retry] := by
        simp [counted, Event.metric?]
      rw [Balanced, counts, calls_snoc_of_not rfl]
      exact (List.append_nil _).trans ih
  | report _ _ ih => exact (ih.quiet rfl rfl).alike rfl
  | unchanged _ _ ih => exact ih.alike (uncounted_verdict _)
  | persist _ _ asked ih => exact ih.asked rfl asked (fun _ => rfl) rfl (uncounted_verdict _)
  | vanish _ _ asked _ _ ih => exact ih.asked rfl asked (fun _ => rfl) rfl (uncounted_verdict _)
  | refuse _ _ asked _ _ ih => exact ih.asked rfl asked (fun _ => rfl) rfl rfl
  | @keep _ _ _ _ result _ _ _ _ ih => cases result <;> exact ih.alike rfl
  | release course changed ih =>
      obtain ⟨asked, rfl⟩ := Reporting.ok_of_release (Course.release course changed)
      exact ih.alike rfl
  | stop _ _ ih | pass _ _ _ ih | enter _ _ _ ih | condemned _ _ ih | complete _ ih => exact ih.alike rfl
  | equipped _ _ _ ih | register _ _ _ ih | conceal _ _ ih | abort _ ih | conclude _ _ ih => exact ih.alike rfl
  | schedule _ _ _ ih | beyond _ _ _ ih | finish _ _ ih | unlabel _ _ ih => exact ih.alike rfl

end

def closing (controller : String) : Except Stop Finished → List Metric
  | .ok finished => [.timed controller, .reconciled controller finished.ending]
  | .error .beyondCalendar => []
  | .error (.error _) => [.timed controller, .reconciled controller .error]

section

variable (m : Manager σ) (v : Visit σ)

theorem trace_reconcile (world : World σ) (id : ResourceId) (s : σ) :
    let ran := m.attempt world id s
    (m.reconcile world id s).trace =
      ran.trace ++ (closing m.controller ran.value).map fun metric => ⟨.counted metric, ran.state, ran.state⟩ := by
  simp only [Manager.reconcile, Run.bind_apply]
  rcases (m.attempt world id s).value with (error | _) | finished <;> rfl

theorem counted_ran : counted (v.ran m).trace =
    stepFailures m.controller (calls (v.ran m).trace) ++
      closing m.controller (m.attempt v.world v.id v.state).value := by
  obtain ⟨now, fetched, left, course⟩ := m.attempt_course v.world v.id v.state
  have balanced : counted _ = stepFailures m.controller _ := (List.append_nil _).symm.trans (balanced_of_course course)
  rw [Visit.ran, calls_reconcile, ← balanced, trace_reconcile]
  simp [counted, Event.metric?, Function.comp_def]

theorem read?_reconcile (world : World σ) (id : ResourceId) (s : σ) :
    read? world id (m.reconcile world id s).trace = read? world id (m.attempt world id s).trace := by
  rw [trace_reconcile, read?, List.findSome?_append]
  have nothing : (List.map (fun metric => (⟨.counted metric, (m.attempt world id s).state,
      (m.attempt world id s).state⟩ : Moment σ)) (closing m.controller (m.attempt world id s).value)).findSome?
        (fun moment => (moment.event.read? id).map fun found => (found, world.now moment.after)) = none := by
    simp [Event.read?]
  rw [nothing, Option.or_none, read?]

theorem eq_fetched_of_read? {event : Event} {id : ResourceId} {found : Option Workspace}
    (read : event.read? id = some found) : event = .fetched id (some (.ok found)) := by
  unfold Event.read? at read
  split at read
  · split at read
    · rename_i same
      rw [same, Option.some.inj read]
    · simp at read
  · simp at read

theorem exists_read (world : World σ) {id : ResourceId} {t : List (Moment σ)} {first : Moment σ}
    {found : Option Workspace} (member : first ∈ t) (answered : first.event = .fetched id (some (.ok found))) :
    ∃ read ∈ t, ∃ known, read.event = .fetched id (some (.ok known)) ∧
      read? world id t = some (known, world.now read.after) := by
  rcases answer : read? world id t with _ | seen
  · have missing := List.findSome?_eq_none_iff.mp answer first member
    simp [answered, Event.read?] at missing
  · obtain ⟨read, among, shown⟩ := List.exists_of_findSome?_eq_some answer
    obtain ⟨known, there, rfl⟩ := Option.map_eq_some_iff.mp shown
    exact ⟨read, among, known, eq_fetched_of_read? there, rfl⟩

theorem read?_of_fetched {c : Cycle σ} {id : ResourceId} {now : Timestamp} {fetched : Workspace}
    {t : List (Moment σ)} (read : Fetched c id now fetched t) : read? c.world id t = some (some fetched, now) := by
  obtain ⟨first, ⟨member, found⟩, rfl, only⟩ := read
  obtain ⟨other, among, known, answered, same⟩ := exists_read c.world member found
  obtain rfl := only other among _ answered
  obtain rfl : known = some fetched := by simpa [found] using answered.symm
  exact same

theorem read?_of_absent (world : World σ) {id : ResourceId} {t : List (Moment σ)}
    (only : calls t = [.fetched id (some (.ok none))]) : ∃ now, read? world id t = some (none, now) := by
  obtain ⟨⟨first, member, found⟩, -⟩ := mem_calls.mp (only ▸ List.mem_singleton_self _)
  obtain ⟨other, among, known, answered, same⟩ := exists_read world member found
  have call : other.event ∈ calls t := mem_calls.mpr ⟨⟨other, among, rfl⟩, by simp [answered, Event.isCall]⟩
  obtain rfl : known = none := by simpa [only, answered] using call
  exact ⟨_, same⟩

theorem closing_eq : closing m.controller (m.attempt v.world v.id v.state).value =
    (v.ending? m).toList.flatMap fun ending => [.timed m.controller, .reconciled m.controller ending] := by
  obtain ⟨now, fetched, left, course⟩ := m.attempt_course v.world v.id v.state
  have outset := course.outset
  have value := m.value_reconcile v.world v.id v.state
  have came := Requeue.came_of_resolved (Cancellation.bound_of_course course)
  have same := read?_reconcile m v.world v.id v.state
  rcases result : (m.attempt v.world v.id v.state).value with (error | _) | _ | outcome | outcome
  all_goals rw [result] at outset value came
  · simp [closing, Visit.ending?, Visit.ran, value, Except.map]
  · simp [closing, Visit.ending?, Visit.ran, value, Except.map]
  · cases came with
    | absent only =>
        obtain ⟨now, read⟩ := read?_of_absent v.world only
        simp [closing, Visit.ending?, Visit.ran, value, Except.map, same, read, Finished.ending]
  · have read : read? v.world v.id _ = _ := read?_of_fetched outset.1
    have skipped : (skips (v.cycle m) now fetched).isSome = true := outset.2
    simp [closing, Visit.ending?, Visit.ran, value, Except.map, same, read, skipped, Finished.ending]
  · have read : read? v.world v.id _ = _ := read?_of_fetched outset.1
    have due : skips (v.cycle m) now fetched = none := outset.2
    by_cases done : outcome.isDone = true <;>
      simp [closing, Visit.ending?, Visit.ran, value, Except.map, same, read, due, Finished.ending, Finished.outcome,
        done]

theorem isSome_ending? : (v.ending? m).isSome = v.ends m := by
  have value := m.value_reconcile v.world v.id v.state
  have counts := closing_eq m v
  rcases result : (m.attempt v.world v.id v.state).value with (error | _) | finished
  all_goals
    rw [result] at value counts
    rcases ended : v.ending? m with _ | ending <;>
      simp_all [closing, Visit.ends, Visit.ran, Except.map]

end

theorem countP_flatMap_congr {α β γ : Type} {p : β → Bool} {q : γ → Bool} {f : α → List β} {g : α → List γ}
    (each : ∀ a, (f a).countP p = (g a).countP q) (l : List α) :
    (l.flatMap f).countP p = (l.flatMap g).countP q := by
  simp [List.countP_flatMap, Function.comp_def, each]

variable (m : Manager σ) (visits : List (Visit σ))

theorem total_of_ending (p : Metric → Bool) (q : Ending → Bool)
    (apart : ∀ subroutine retry, p (.stepFailed m.controller subroutine retry) = false)
    (each : ∀ ending,
      [Metric.timed m.controller, .reconciled m.controller ending].countP p = if q ending then 1 else 0) :
    Metric.total p (visits.flatMap fun v => counted (v.ran m).trace) =
      visits.countP fun v => (v.ending? m).any q := by
  have one (v : Visit σ) :
      (counted (v.ran m).trace).countP p = [v].countP fun v => (v.ending? m).any q := by
    have steps : (stepFailures m.controller (calls (v.ran m).trace)).countP p = 0 := by
      refine List.countP_eq_zero.mpr fun metric member => ?_
      obtain ⟨failure, _, rfl⟩ := List.mem_map.mp member
      simp [apart]
    rw [counted_ran, List.countP_append, steps, closing_eq, Nat.zero_add]
    rcases ended : v.ending? m with _ | ending
    · simp [ended]
    · simpa [ended, List.countP_cons] using each ending
  rw [Metric.total_eq_countP, countP_flatMap_congr one visits]
  simp

theorem total_of_step (subroutine : String) (retry : Bool) :
    Metric.total (· = .stepFailed m.controller subroutine retry)
        (visits.flatMap fun v => counted (v.ran m).trace) =
      (visits.flatMap fun v => calls (v.ran m).trace).countP (·.failedStep? = some (subroutine, retry)) := by
  rw [Metric.total_eq_countP]
  refine countP_flatMap_congr (fun v => ?_) visits
  have closed : (closing m.controller (m.attempt v.world v.id v.state).value).countP
      (· = .stepFailed m.controller subroutine retry) = 0 := by
    rw [closing_eq]
    refine List.countP_eq_zero.mpr fun metric member => ?_
    obtain ⟨ending, _, own⟩ := List.mem_flatMap.mp member
    rcases List.mem_pair.mp own with rfl | rfl <;> simp
  rw [counted_ran, List.countP_append, closed, Nat.add_zero, stepFailures, List.countP_map, List.countP_filterMap]
  congr 1
  funext event
  rcases failed : event.failedStep? with _ | ⟨name, again⟩ <;> simp

/-- Over all the reconciles of a manager, whatever became of them, the metrics add up: each that has come to an end is
timed once and counted once, as what it has ended in, and each failure of a step is counted once. -/
theorem metrics_add_up (m : Manager σ) (visits : List (Visit σ)) :
    let metrics := visits.flatMap fun v => counted (v.ran m).trace
    let made := visits.flatMap fun v => calls (v.ran m).trace
    Metric.total (·.name = "converge_reconcile_total") metrics = visits.countP (·.ends m) ∧
      Metric.total (·.name = "converge_reconcile_duration_seconds") metrics = visits.countP (·.ends m) ∧
      (∀ ending, Metric.total (· = .reconciled m.controller ending) metrics =
        visits.countP (·.ending? m = some ending)) ∧
      (∀ v ∈ visits, (v.ending? m).isSome = v.ends m) ∧
      ∀ subroutine retry, Metric.total (· = .stepFailed m.controller subroutine retry) metrics =
        made.countP (·.failedStep? = some (subroutine, retry)) := by
  have ended (v : Visit σ) : (v.ending? m).any (fun _ => true) = v.ends m := by
    rw [← isSome_ending?]
    cases v.ending? m <;> rfl
  refine ⟨?_, ?_, fun ending => ?_, fun v _ => isSome_ending? m v, total_of_step m visits⟩
  · refine (total_of_ending m visits _ (fun _ => true) ?_ ?_).trans (by simp only [ended]) <;>
      simp [Metric.name]
  · refine (total_of_ending m visits _ (fun _ => true) ?_ ?_).trans (by simp only [ended]) <;>
      simp [Metric.name]
  · refine (total_of_ending m visits _ (· = ending) ?_ ?_).trans ?_
    · simp
    · simp [List.countP_cons]
    · congr 1
      funext v
      cases v.ending? m <;> simp

end Counting

end Reconciler
