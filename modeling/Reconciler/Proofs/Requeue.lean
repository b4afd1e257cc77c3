import Reconciler.Controller.Loop
import Reconciler.Proofs.Cancellation

set_option autoImplicit false

namespace Reconciler

open Reconcile

variable {σ : Type}

namespace Event

def asks? : Event → Option Outcome
  | stepped _ _ _ (some answer) => answer.result.toOption
  | _ => none

def isCut : Event → Bool
  | fetched _ none | updated _ none | statusUpdated _ none | stepped _ _ _ none => true
  | _ => false

def succeeds : Event → Bool
  | fetched _ (some (.ok _)) | updated _ (some (.ok _)) | statusUpdated _ (some (.ok _)) => true
  | statusUpdated given (some (.error error)) => decide (Vanished given error)
  | stepped _ _ _ (some answer) =>
      match answer.result with
      | .ok outcome => outcome.isDone
      | .error _ => false
  | event => !event.isCall

end Event

namespace Requeue

def asked (events : List Event) : List Outcome :=
  events.filterMap Event.asks?

structure Shortest (outcomes : List Outcome) (d : Duration) : Prop where
  some : d.isZero = false
  among : ∃ o ∈ outcomes, o.after = d
  least : ∀ o ∈ outcomes, o.after.isZero = false → d ≤ o.after

-- When to come back for all that was asked for: at once if one step has asked for that, or else after the shortest
-- delay.
inductive Wanted (outcomes : List Outcome) : Action → Prop where
  | now : (∃ o ∈ outcomes, o.requeue = true) → Wanted outcomes (.requeue .zero)
  | later {d} : (∀ o ∈ outcomes, o.requeue = false) → Shortest outcomes d → Wanted outcomes (.requeue d)
  | nothing : (∀ o ∈ outcomes, o.isDone = true) → Wanted outcomes .awaitChange

-- A reconcile after which only a change of the resource calls for another one.
inductive Parked (c : Cycle σ) (id : ResourceId) (t : List (Moment σ)) : Except Stop Outcome → Prop where
  | absent {value} : calls t = [.fetched id (some (.ok none))] → Parked c id t value
  | expired {value read w remaining} :
      Finds id t read w → skips c (c.world.now read.after) w = some remaining → remaining.isZero = true →
      Parked c id t value
  | finished {value read w} :
      Finds id t read w → skips c (c.world.now read.after) w = none → (∀ event ∈ calls t, event.succeeds = true) →
      Parked c id t value
  | hopeless {error} : error.isRetryable = false → Parked c id t (.error (.error error))

inductive Came (c : Cycle σ) (id : ResourceId) (now : Timestamp) (fetched : Workspace) (events : List Event) :
    Except Stop Finished → Prop where
  | failed {error} :
      (error.isRetryable = true → ∃ event ∈ events, event.succeeds = false) →
      Came c id now fetched events (.error (.error error))
  | beyond : Came c id now fetched events (.error .beyondCalendar)
  | absent : events = [.fetched id (some (.ok none))] → Came c id now fetched events (.ok .notFound)
  | skipped {remaining} :
      .fetched id (some (.ok (some fetched))) ∈ events → skips c now fetched = some remaining →
      Came c id now fetched events (.ok (.skipped (.requeueAfter remaining)))
  | whole {outcome} :
      .fetched id (some (.ok (some fetched))) ∈ events → Wanted (asked events) outcome.action →
      ((∀ event ∈ events, event.succeeds = true) ↔ outcome.isDone = true) →
      Came c id now fetched events (.ok (.reconciled outcome))

def Decides (c : Cycle σ) (id : ResourceId) (now : Timestamp) (fetched : Workspace) (t : List (Moment σ))
    (value : Except Stop Finished) : Prop :=
  ∀ read found, Finds id t read found → skips c (c.world.now read.after) found = skips c now fetched ∧
    ((∃ outcome, value = .ok (.skipped outcome)) ↔ (skips c now fetched).isSome = true)

section

variable {outcomes : List Outcome} {o : Outcome}

theorem requeue_foldl (outcomes : List Outcome) :
    (outcomes.foldl Outcome.merge .done).requeue = outcomes.any (·.requeue) := by
  induction outcomes using List.reverseRecOn with
  | nil => rfl
  | append_singleton outcomes o ih => simp [Outcome.merge, ih]

theorem isDone_foldl (outcomes : List Outcome) :
    (outcomes.foldl Outcome.merge .done).isDone = outcomes.all (·.isDone) := by
  induction outcomes using List.reverseRecOn with
  | nil => rfl
  | append_singleton outcomes o ih => simp [Outcome.isDone_merge, ih]

theorem Shortest.kept {d : Duration} (shortest : Shortest outcomes d)
    (longer : o.after.isZero = false → d ≤ o.after) : Shortest (outcomes ++ [o]) d := by
  obtain ⟨other, member, same⟩ := shortest.among
  refine ⟨shortest.some, ⟨other, by simp [member], same⟩, fun other member delayed => ?_⟩
  rcases List.mem_append.mp member with earlier | last
  · exact shortest.least other earlier delayed
  · obtain rfl := List.mem_singleton.mp last
    exact longer delayed

theorem Shortest.replaced (some : o.after.isZero = false)
    (least : ∀ other ∈ outcomes, other.after.isZero = false → o.after ≤ other.after) :
    Shortest (outcomes ++ [o]) o.after := by
  refine ⟨some, ⟨o, by simp, rfl⟩, fun other member delayed => ?_⟩
  rcases List.mem_append.mp member with earlier | last
  · exact least other earlier delayed
  · obtain rfl := List.mem_singleton.mp last
    exact Nat.le_refl _

def Delays (outcomes : List Outcome) (d : Duration) : Prop :=
  (d.isZero = true ∧ ∀ o ∈ outcomes, o.after.isZero = true) ∨ Shortest outcomes d

theorem Delays.merge {first : Outcome} (delays : Delays outcomes first.after) (o : Outcome) :
    Delays (outcomes ++ [o]) (first.merge o).after := by
  -- Only a delay can replace the shortest so far, and it does if there is none, or if it is shorter.
  rcases some : o.after.isZero with _ | _
  · rcases delays with ⟨zero, all⟩ | shortest
    · have after : (first.merge o).after = o.after := by simp [Outcome.merge, some, zero]
      rw [after]
      exact .inr (.replaced some fun other member delayed => by simp [all other member] at delayed)
    · by_cases less : o.after < first.after
      · have after : (first.merge o).after = o.after := by simp [Outcome.merge, some, less]
        rw [after]
        exact .inr (.replaced some fun other member delayed =>
          Nat.le_trans (Nat.le_of_lt less) (shortest.least other member delayed))
      · have after : (first.merge o).after = first.after := by simp [Outcome.merge, shortest.some, less]
        rw [after]
        exact .inr (shortest.kept fun _ => Nat.le_of_not_lt less)
  · have after : (first.merge o).after = first.after := by simp [Outcome.merge, some]
    rw [after]
    rcases delays with ⟨zero, all⟩ | shortest
    · refine .inl ⟨zero, fun other member => ?_⟩
      rcases List.mem_append.mp member with earlier | last
      · exact all other earlier
      · exact List.mem_singleton.mp last ▸ some
    · exact .inr (shortest.kept fun delayed => by simp [some] at delayed)

theorem delays_foldl (outcomes : List Outcome) : Delays outcomes (outcomes.foldl Outcome.merge .done).after := by
  induction outcomes using List.reverseRecOn with
  | nil => exact .inl ⟨rfl, by simp⟩
  | append_singleton outcomes o ih =>
      rw [List.foldl_concat]
      exact ih.merge o

theorem wanted_foldl (outcomes : List Outcome) : Wanted outcomes (outcomes.foldl Outcome.merge .done).action := by
  have requeue := requeue_foldl outcomes
  have delays := delays_foldl outcomes
  generalize outcomes.foldl Outcome.merge .done = merged at requeue delays
  rcases now : merged.requeue with _ | _
  · have patient : ∀ o ∈ outcomes, o.requeue = false := by simpa [now] using requeue
    rcases delays with ⟨zero, all⟩ | shortest
    · have action : merged.action = .awaitChange := by simp [Outcome.action, now, zero]
      rw [action]
      exact .nothing fun o member => by simp [Outcome.isDone, patient o member, all o member]
    · have action : merged.action = .requeue merged.after := by simp [Outcome.action, now, shortest.some]
      rw [action]
      exact .later patient shortest
  · have action : merged.action = .requeue .zero := by simp [Outcome.action, now]
    rw [action]
    exact .now (List.any_eq_true.mp (requeue.symm.trans now))

end

section

variable {c : Cycle σ} {id : ResourceId} {now : Timestamp} {fetched w : Workspace} {phase : Phase}
variable {turnouts : List (Turnout σ)} {o : Turnout σ} {events : List Event}

theorem asked_append (front back : List Event) : asked (front ++ back) = asked front ++ asked back := by
  simp [asked]

theorem succeeds_iff {event : Event} :
    event.succeeds = true ↔
      event.isCut = false ∧ event.failure? = none ∧ ∀ outcome, event.asks? = some outcome → outcome.isDone = true := by
  cases event with
  | logged | reported | counted => simp [Event.succeeds, Event.isCut, Event.isCall, Event.failure?, Event.refusal?,
      Event.asks?]
  | fetched _ answer | updated _ answer | statusUpdated _ answer =>
      rcases answer with _ | _ | _ <;>
        simp [Event.succeeds, Event.isCut, Event.failure?, Event.refusal?, Event.asks?, Event.isCall]
  | stepped _ _ _ answer =>
      rcases answer with _ | answer
      · simp [Event.succeeds, Event.isCut, Event.isCall]
      · rcases result : answer.result with failure | outcome <;>
          simp [Event.succeeds, Event.isCut, Event.failure?, Event.asks?, result, Except.toOption]

theorem asked_of_persisted {changed : Workspace × Bool} (persisted : Persisted changed events w) :
    asked events = [] := by
  cases persisted <;> rfl

theorem join_eq (turns : Turns c phase now o.sub o.found o.calls o.result o.left) (fine : o.failed = false)
    (outcome : Outcome) : o.join outcome = (asked o.calls).foldl Outcome.merge outcome := by
  obtain ⟨sub, found, own, result, left⟩ := o
  dsimp only at turns fine ⊢
  cases turns with
  | passed => rfl
  | unregistered | unreleased => simp [Turnout.failed] at fine
  | taken _ taken =>
      cases taken with
      | @processed _ _ _ answer _ _ persisted _ =>
          rw [asked_append, asked_of_persisted persisted]
          rcases ended : answer.result with failure | outcome <;>
            simp [asked, Event.asks?, Turnout.join, Except.mapError, Except.toOption, ended]
      | @finalized _ answer _ _ _ _ _ persisted =>
          rw [← List.singleton_append, asked_append, asked_of_persisted persisted]
          rcases ended : answer.result with failure | outcome <;>
            simp [asked, Event.asks?, Turnout.join, Except.mapError, Except.toOption, ended]

theorem merged_eq {left : Workspace} (sweeps : Sweeps c phase now w turnouts left)
    (clean : ∀ o ∈ turnouts, o.failed = false) :
    merged turnouts = (asked (begun id fetched turnouts)).foldl Outcome.merge .done := by
  induction sweeps with
  | start => rfl
  | @turn turnouts o _ _ turns ih =>
      rw [merged_snoc, begun_snoc, asked_append, List.foldl_append, ← ih fun o member => clean o (by simp [member])]
      exact join_eq turns (clean o (by simp)) _

theorem uncut_of_turns {sub : Subroutine σ} {found left : Workspace} {own : List Event}
    {result : Option (Except Error Outcome)} (turns : Turns c phase now sub found own result left) :
    ∀ event ∈ own, event.isCut = false := by
  have written {changed : Workspace × Bool} {writes : List Event} {w : Workspace}
      (persisted : Persisted changed writes w) : ∀ event ∈ writes, event.isCut = false := by
    cases persisted <;> simp [Event.isCut]
  cases turns with
  | passed | unregistered | unreleased => simp [Event.isCut]
  | taken _ taken =>
      cases taken with
      | processed _ persisted _ => simpa [or_imp, forall_and, Event.isCut] using written persisted
      | finalized _ _ persisted => simpa [Event.isCut] using written persisted

theorem all_succeed_iff (uncut : ∀ event ∈ events, event.isCut = false)
    (unfailed : events.findSome? Event.failure? = none) :
    (∀ event ∈ events, event.succeeds = true) ↔ ∀ o ∈ asked events, o.isDone = true := by
  constructor
  · intro all o member
    obtain ⟨event, among, asks⟩ := List.mem_filterMap.mp member
    exact (succeeds_iff.mp (all event among)).2.2 o asks
  · intro done event member
    refine succeeds_iff.mpr ⟨uncut event member, List.findSome?_eq_none_iff.mp unfailed event member, fun o asks => ?_⟩
    exact done o (List.mem_filterMap.mpr ⟨event, member, asks⟩)

theorem uncut_of_begun {left : Workspace} (sweeps : Sweeps c phase now w turnouts left) :
    ∀ event ∈ begun id fetched turnouts, event.isCut = false := by
  intro event member
  rcases List.mem_cons.mp member with rfl | turn
  · rfl
  · obtain ⟨o, among, called⟩ := List.mem_flatMap.mp turn
    exact uncut_of_turns (sweeps.turns among) event called

def Stores (event : Event) : Prop :=
  event.isWrite = true ∧ event.isCut = false ∧ event.failure? = none

theorem stores_of_kept {last : Workspace} {writes : List Event} (kept : StatusKept fetched last writes w) :
    ∀ event ∈ writes, Stores event := by
  cases kept <;> simp_all [Stores, Event.isWrite, Event.isCut, Event.failure?, Event.refusal?]

theorem whole_of_closes {last : Workspace} {outcome : Outcome} {closing : List Event}
    (closes : Closes c now fetched turnouts (.outcome outcome) last) (stores : ∀ event ∈ closing, Stores event) :
    Wanted (asked (begun id fetched turnouts ++ closing)) outcome.action ∧
      ((∀ event ∈ begun id fetched turnouts ++ closing, event.succeeds = true) ↔ outcome.isDone = true) := by
  obtain ⟨left, progress⟩ := closes.progress
  have silent : asked closing = [] := by
    refine List.filterMap_eq_nil_iff.mpr fun event member => ?_
    have write := (stores event member).1
    cases event <;> simp_all [Event.isWrite, Event.asks?]
  have outcome_eq : outcome = (asked (begun id fetched turnouts ++ closing)).foldl Outcome.merge .done := by
    rw [asked_append, silent, List.append_nil, ← merged_eq progress.chain progress.clean]
    exact progress.asked
  -- What is left to tell a call that went well is what its step asked for: none has failed, and none was given up.
  have unfailed : (begun id fetched turnouts ++ closing).findSome? Event.failure? = none := by
    have calm : closing.findSome? Event.failure? = none :=
      List.findSome?_eq_none_iff.mpr fun event member => (stores event member).2.2
    rw [List.findSome?_append, Cancellation.failure_of_closes closes, calm]
    rfl
  have uncut : ∀ event ∈ begun id fetched turnouts ++ closing, event.isCut = false := by
    intro event member
    rcases List.mem_append.mp member with turn | late
    · exact uncut_of_begun progress.chain event turn
    · exact (stores event late).2.1
  constructor
  · rw [outcome_eq]
    exact wanted_foldl _
  · rw [all_succeed_iff uncut unfailed, outcome_eq, isDone_foldl, List.all_eq_true]

theorem came_of_resolved {value : Except Stop Finished}
    (resolved : Cancellation.Resolved c id now fetched events value) : Came c id now fetched events value := by
  unfold Cancellation.Resolved at resolved
  split at resolved
  · rename_i error failure
    subst resolved
    obtain ⟨event, member, failed⟩ := List.exists_of_findSome?_eq_some failure
    refine .failed fun _ => ⟨event, member, Bool.eq_false_iff.mpr fun fine => ?_⟩
    simp [(succeeds_iff.mp fine).2.1] at failed
  · cases resolved with
    | unread | severed | unstored | labelled => exact .failed fun retried => by simp [Error.isRetryable] at retried
    | absent => exact .absent rfl
    | skipped due => exact .skipped List.mem_cons_self due
    | beyond => exact .beyond
    | whole closes status _ =>
        obtain ⟨wanted, done⟩ := whole_of_closes closes (stores_of_kept status)
        exact .whole (by simp [begun]) wanted done
    | @unlabelled _ _ _ writes kept stored closes status _ =>
        have stores : ∀ event ∈ writes ++ [.updated (Spread.clearRefreshMarker kept).1 (some (.ok stored))],
            Stores event := by
          intro event member
          rcases List.mem_append.mp member with early | last
          · exact stores_of_kept status event early
          · obtain rfl := List.mem_singleton.mp last
            exact ⟨rfl, rfl, rfl⟩
        obtain ⟨wanted, done⟩ := whole_of_closes closes stores
        rw [List.append_assoc]
        exact .whole (by simp [begun]) wanted done

end

section

variable {c : Cycle σ} {id : ResourceId} {now : Timestamp} {fetched : Workspace} {t : List (Moment σ)}
variable {value : Except Stop Finished}

theorem ne_absent_of_read (read : .fetched id (some (.ok (some fetched))) ∈ calls t) :
    calls t ≠ [.fetched id (some (.ok none))] := fun only => by
  simp [only] at read

theorem Decides.not_parked_of_failed {error : Error} {event : Event}
    (decides : Decides c id now fetched t (.error (.error error))) (member : event ∈ calls t)
    (failed : event.succeeds = false) (retried : error.isRetryable = true) :
    ¬Parked c id t (.error (.error error)) := by
  intro parked
  cases parked with
  | absent only =>
      obtain rfl : event = _ := List.mem_singleton.mp (only ▸ member)
      simp [Event.succeeds] at failed
  | expired finds due _ =>
      obtain ⟨same, skipped⟩ := decides _ _ finds
      simpa using skipped.mpr (by simp [← same, due])
  | finished _ _ all => simp [all event member] at failed
  | hopeless lasting => simp [lasting] at retried

theorem Decides.parked_skipped_iff {remaining : Duration} (decides : Decides c id now fetched t value)
    (asked : .fetched id (some (.ok (some fetched))) ∈ calls t) (due : skips c now fetched = some remaining) :
    Parked c id t (.ok (.requeueAfter remaining)) ↔ (Outcome.requeueAfter remaining).isDone = true := by
  obtain ⟨⟨read, finds⟩, -⟩ := mem_calls.mp asked
  have done : (Outcome.requeueAfter remaining).isDone = remaining.isZero := by
    simp [Outcome.isDone, Outcome.requeueAfter]
  rw [done]
  refine ⟨fun parked => ?_, .expired finds ((decides _ _ finds).1.trans due)⟩
  cases parked with
  | absent only => exact absurd only (ne_absent_of_read asked)
  | expired again late zero =>
      obtain rfl := Option.some.inj (late.symm.trans ((decides _ _ again).1.trans due))
      exact zero
  | finished again steady _ => simp [(decides _ _ again).1, due] at steady

theorem Decides.parked_whole_iff {outcome : Outcome}
    (decides : Decides c id now fetched t (.ok (.reconciled outcome)))
    (asked : .fetched id (some (.ok (some fetched))) ∈ calls t)
    (done : (∀ event ∈ calls t, event.succeeds = true) ↔ outcome.isDone = true) :
    Parked c id t (.ok outcome) ↔ outcome.isDone = true := by
  obtain ⟨⟨read, finds⟩, -⟩ := mem_calls.mp asked
  have steady : skips c now fetched = none := by simpa using (decides _ _ finds).2
  refine ⟨fun parked => ?_, fun idle => .finished finds ((decides _ _ finds).1.trans steady) (done.mpr idle)⟩
  cases parked with
  | absent only => exact absurd only (ne_absent_of_read asked)
  | expired again late _ => simp [(decides _ _ again).1, steady] at late
  | finished _ _ all => exact done.mp all

end

section

variable {m : Manager σ} {world : World σ} {settings : Controller.Settings} {w : Workspace} {s : σ}

theorem value_attend :
    (Controller.attend m world settings w s).value = match (m.attempt world w.id s).value with
      | .ok finished => some finished.outcome.action
      | .error (.error error) => some (Controller.errorAction error settings.errorRequeue)
      | .error .beyondCalendar => none := by
  simp only [Controller.attend, Controller.reconcile, Run.bind_apply]
  rw [m.value_reconcile world w.id s]
  rcases (m.attempt world w.id s).value with (_ | _) | _ <;> rfl

theorem action_eq_awaitChange_iff {outcome : Outcome} : outcome.action = .awaitChange ↔ outcome.isDone = true := by
  unfold Outcome.action Outcome.isDone
  rcases outcome.requeue <;> rcases outcome.after.isZero <;> simp

theorem attempt_came (m : Manager σ) (world : World σ) (id : ResourceId) (s : σ) :
    let c := m.cycle world id (world.correlate s).1
    let t := (m.reconcile world id s).trace
    let value := (m.attempt world id s).value
    ∃ now fetched, Came c id now fetched (calls t) value ∧ Decides c id now fetched t value := by
  intro c t value
  obtain ⟨now, fetched, left, course⟩ := m.attempt_course world id s
  refine ⟨now, fetched, ?_, fun read found finds => ?_⟩
  · rw [show calls t = _ from calls_reconcile]
    exact came_of_resolved (Cancellation.bound_of_course course)
  · have attempted := finds_reconcile.mp finds
    obtain ⟨rfl, rfl⟩ := course.found_eq attempted
    exact ⟨rfl, (Manager.attempt_finds attempted).2.1⟩

theorem parked_iff (m : Manager σ) (world : World σ) (id : ResourceId) (s : σ)
    (bounded : (m.attempt world id s).value ≠ .error .beyondCalendar) :
    Parked (m.cycle world id (world.correlate s).1) id (m.reconcile world id s).trace (m.reconcile world id s).value ↔
      match (m.attempt world id s).value with
      | .ok finished => finished.outcome.isDone = true
      | .error (.error error) => error.isRetryable = false
      | .error .beyondCalendar => False := by
  obtain ⟨now, fetched, came, decides⟩ := attempt_came m world id s
  rw [m.value_reconcile world id s]
  generalize (m.attempt world id s).value = value at *
  cases came with
  | beyond => exact absurd rfl bounded
  | absent only => exact ⟨fun _ => rfl, fun _ => .absent only⟩
  | failed because =>
      refine ⟨fun parked => Bool.eq_false_iff.mpr fun retried => ?_, .hopeless⟩
      obtain ⟨event, member, failed⟩ := because retried
      exact decides.not_parked_of_failed member failed retried parked
  | skipped asked due => exact decides.parked_skipped_iff asked due
  | whole asked _ done => exact decides.parked_whole_iff asked done

/-- A resource is left alone until it changes if there is nothing to be done, or nothing that would help. Otherwise its
next reconcile is put off: after a failure for a fixed time, for the time left if it was skipped, and else for as long
as its steps have asked for. Only a reconcile that no calendar holds is followed by no action. -/
theorem parked_iff_idle (m : Manager σ) (world : World σ) (settings : Controller.Settings) (w : Workspace) (s : σ) :
    let c := m.cycle world w.id (world.correlate s).1
    let ran := m.reconcile world w.id s
    let action := (Controller.attend m world settings w s).value
    (action = none ↔ ran.value = .error .beyondCalendar) ∧
    (action = some .awaitChange ↔ ran.value ≠ .error .beyondCalendar ∧ Parked c w.id ran.trace ran.value) ∧
    (∀ error, ran.value = .error (.error error) → error.isRetryable = true →
      action = some (.requeue settings.errorRequeue)) ∧
    (∀ read found remaining, Finds w.id ran.trace read found → skips c (world.now read.after) found = some remaining →
      remaining.isZero = false → action = some (.requeue remaining)) ∧
    (∀ read found outcome, Finds w.id ran.trace read found → skips c (world.now read.after) found = none →
      ran.value = .ok outcome → ∃ wanted, action = some wanted ∧ Wanted (asked (calls ran.trace)) wanted) := by
  intro c ran action
  obtain ⟨now, fetched, came, decides⟩ := attempt_came m world w.id s
  have parked := parked_iff m world w.id s
  have value : ran.value = (m.attempt world w.id s).value.map Finished.outcome := m.value_reconcile world w.id s
  have acts : action = _ := value_attend
  change _ → (Parked c w.id ran.trace ran.value ↔ _) at parked
  change Came c w.id now fetched (calls ran.trace) _ at came
  generalize (m.attempt world w.id s).value = ended at *
  refine ⟨?unbounded, ?parked, ?failed, ?skipped, ?whole⟩
  case unbounded =>
    rw [acts, value]
    rcases ended with (_ | _) | _ <;> simp [Except.map]
  case parked =>
    rcases ended with (error | _) | finished
    · rw [parked (by simp), acts, value]
      simp [Except.map, Controller.errorAction]
    · simp [acts, value, Except.map]
    · rw [parked (by simp), acts, value]
      simp [Except.map, action_eq_awaitChange_iff]
  case failed =>
    intro error failed retried
    rcases ended with (other | _) | finished <;> simp [value, Except.map] at failed
    subst failed
    simp [acts, Controller.errorAction, retried]
  case skipped =>
    intro read found remaining finds due pending
    obtain ⟨same, skipped⟩ := decides read found finds
    obtain ⟨outcome, rfl⟩ := skipped.mpr (Option.isSome_of_mem (same.symm.trans due))
    cases came with
    | skipped _ other =>
        obtain rfl := Option.some.inj (due.symm.trans (same.trans other))
        simp [acts, Finished.outcome, Outcome.action, Outcome.requeueAfter, pending]
  case whole =>
    intro read found outcome finds steady result
    obtain ⟨same, skipped⟩ := decides read found finds
    have asked : .fetched w.id (some (.ok (some found))) ∈ calls ran.trace := mem_calls.mpr ⟨⟨read, finds⟩, rfl⟩
    cases came with
    | failed | beyond => simp [value, Except.map] at result
    | absent only => simp [only] at asked
    | skipped _ due => simpa using steady.symm.trans (same.trans due)
    | whole _ wanted _ =>
        obtain rfl : _ = outcome := by simpa [value, Except.map, Finished.outcome] using result
        exact ⟨_, acts, wanted⟩

end

end Requeue

end Reconciler
