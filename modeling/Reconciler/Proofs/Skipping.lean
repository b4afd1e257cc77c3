import Mathlib.Data.List.Infix
import Reconciler.Proofs.ObservedGeneration

set_option autoImplicit false

namespace Reconciler

open Reconcile
open ObservedGeneration (Restated core core_eq)
open Pending (Alone eq_nil_of_own terms)

variable {σ : Type}

namespace Skipping

def sketch (w : Workspace) : (Workspace.Spec × Int64 × Bool) × Labels × Option Int64 × Option Timestamp :=
  (core w, w.labels, terms w)

def Changes (d : Deed) (change : Workspace → Workspace → Prop) : Prop :=
  ∃ stored, d.found = some stored ∧ (d.left = none → stored.isBeingDeleted = true) ∧
    ∀ left, d.left = some left → change stored left

-- A write of metadata puts labels in place and makes no new generation of the same spec, one of the status puts in
-- place what that says of the schedule.
def rules : Rules where
  others _ := True
  update given _ d := Changes d fun stored left =>
    left.labels = given.labels ∧ terms left = terms stored ∧ (given.spec = stored.spec → core left = core stored)
  updateStatus given _ d := Changes d fun stored left =>
    core left = core stored ∧ left.labels = stored.labels ∧ Restated given stored left

-- Half a day after that time, and up to half a day later.
def Ahead (now next : Timestamp) : Prop :=
  ∃ minutes : Nat, minutes < 720 ∧ now.addSeconds? (12 * 3600 + 60 * minutes) = some next

def planned (next : Timestamp) (w : Workspace) : Workspace :=
  w.modifyStatus fun status => { status with observedGeneration := some w.generation, nextReconcile := some next }

structure Scheduled (now next : Timestamp) (w : Workspace) : Prop where
  live : w.isBeingDeleted = false
  observed : w.currentStatus.observedGeneration = some w.generation
  due : w.currentStatus.nextReconcile = some next
  ahead : Ahead now next
  unmarked : Spread.hasRefreshMarker w = false

-- The reconcile calls for nothing but its read. It returns the time that is left, none if it is over, or the error of
-- the read.
inductive Waits (world : World σ) (id : ResourceId) (next : Timestamp) (w : Workspace)
    (ran : Ran σ (Except Stop Outcome)) : Prop where
  | skipped {read} :
      Finds id ran.trace read w → calls ran.trace = [read.event] →
      ran.value = .ok (.requeueAfter ⟨(next.since (world.now read.after)).toNat⟩) → Waits world id next w ran
  | unread {answer error} :
      calls ran.trace = [.fetched id answer] ∨ calls ran.trace = [] ∧ answer = none →
      answer.getD (.error .cancelled) = .error error → ran.value = .error (.error error) → Waits world id next w ran

def Shows (w : Workspace) (l : Chronicle) : Prop :=
  ∃ stored, l.stored = some stored ∧ sketch stored = sketch w

structure Holds (id : ResourceId) (v w : Workspace) : Prop where
  identity : w.id = id
  alike : sketch w = sketch v

def Knows (id : ResourceId) (now : Timestamp) (fetched w : Workspace) (l : Chronicle) : Stage σ → Prop
  | .sweeping .. | .turning .. | .stepping .. | .cleaned .. | .settled .. => Shows fetched l ∧ Holds id fetched w
  | .writing (.register ..) | .writing (.release ..) => Shows fetched l ∧ Holds id fetched w
  | .persisting (.outcome outcome) => outcome.isDone = true →
      Shows fetched l ∧ ∃ next, Ahead now next ∧ Holds id (planned next fetched) w
  | .unlabelling outcome => outcome.isDone = true →
      ∃ next, Ahead now next ∧ Shows (planned next fetched) l ∧ Holds id (planned next fetched) w
  | .writing (.unlabel outcome) => outcome.isDone = true →
      ∃ next, Ahead now next ∧ Shows (planned next fetched) l ∧ w.id = id ∧ w.spec = fetched.spec ∧
        Spread.hasRefreshMarker w = false
  | .ended (.ok (.reconciled outcome)) => outcome.isDone = true →
      ∃ v next, l.stored = some v ∧ Scheduled now next v
  | .reporting _ next => Knows id now fetched w l next
  | _ => True

section

variable {c : Cycle σ} {chronicle : σ → Chronicle} {id : ResourceId} {now : Timestamp} {fetched : Workspace}
variable {start s s' : σ} {t piece : List (Moment σ)} {v w w' : Workspace} {stage : Stage σ} {l l' : Chronicle}

theorem sketch_eq : sketch w = sketch v ↔ core w = core v ∧ w.labels = v.labels ∧ terms w = terms v := by
  simp [sketch]

theorem blind_of_steady (steady : c.manager.StepsKeep fun w => (w.metadata, w.spec, terms w)) :
    Blind c fun w => (w.id, sketch w) where
  steps := by
    intro sub member phase w s answer s' ends
    have same := steady sub member phase w s answer s' ends
    simp only [Prod.mk.injEq] at same
    obtain ⟨metadata, spec, said⟩ := same
    simp [sketch, core, Workspace.id, Workspace.displayName, Workspace.generation, Workspace.isBeingDeleted,
      Workspace.labels, metadata, spec, said]
  conditions _ _ := rfl
  finalizers _ _ := rfl
  version _ _ := rfl

theorem Holds.alike_of (holds : Holds id v w) (same : (w'.id, sketch w') = (w.id, sketch w)) : Holds id v w' := by
  obtain ⟨identity, alike⟩ := Prod.mk.inj same
  exact ⟨identity.trans holds.identity, alike.trans holds.alike⟩

theorem Shows.changes {d : Deed} {change : Workspace → Workspace → Prop} (shows : Shows v l)
    (live : v.isBeingDeleted = false) (linked : (l ++ [d]).Linked) (changes : Changes d change) :
    ∃ stored left, sketch stored = sketch v ∧ (l ++ [d]).stored = some left ∧ change stored left := by
  obtain ⟨stored, there, alike⟩ := shows
  obtain ⟨found, was, leaves, becomes⟩ := changes
  rw [linked.found, there] at was
  obtain rfl := Option.some.inj was
  rcases remains : d.left with _ | left
  · have deleted := leaves remains
    rw [(core_eq.mp (sketch_eq.mp alike).1).2.2, live] at deleted
    simp at deleted
  · exact ⟨stored, left, alike, by rw [Chronicle.stored_snoc, remains], becomes left remains⟩

theorem Shows.update {d : Deed} {answer : Option (Except Error Workspace)} (shows : Shows v l)
    (live : v.isBeingDeleted = false) (spec : w.spec = v.spec) (linked : (l ++ [d]).Linked)
    (effective : rules.update w answer d) :
    ∃ left, (l ++ [d]).stored = some left ∧ core left = core v ∧ left.labels = w.labels ∧ terms left = terms v := by
  obtain ⟨stored, left, alike, remains, labels, said, kept⟩ := shows.changes live linked effective
  obtain ⟨same, _, schedule⟩ := sketch_eq.mp alike
  exact ⟨left, remains, (kept (spec.trans (core_eq.mp same).1.symm)).trans same, labels, said.trans schedule⟩

theorem Shows.updateStatus {d : Deed} {answer : Option (Except Error Workspace)} {next : Timestamp}
    (shows : Shows v l) (live : v.isBeingDeleted = false) (same : terms w = terms (planned next v))
    (linked : (l ++ [d]).Linked) (effective : rules.updateStatus w answer d) : Shows (planned next v) (l ++ [d]) := by
  obtain ⟨stored, left, alike, remains, kept, labels, restated⟩ := shows.changes live linked effective
  obtain ⟨plain, labelled, _⟩ := sketch_eq.mp alike
  exact ⟨left, remains, sketch_eq.mpr ⟨kept.trans plain, labels.trans labelled, restated.eq_given same⟩⟩

theorem Shows.updated {stored : Workspace} (shows : Shows v (chronicle s)) (live : v.isBeingDeleted = false)
    (spec : w.spec = v.spec) (here : w.id = id) (recorded : Recorded c.manager c.world id chronicle rules)
    (grown : Grown chronicle rules.others id start t (chronicle s))
    (asked : Run.Asked c.world.cancelled (c.world.update w) (.updated w) s (some (.ok stored)) piece s')
    (alone : Alone chronicle id fetched (t ++ piece) (chronicle s')) :
    ∃ left, (chronicle s').stored = some left ∧ core left = core v ∧ left.labels = w.labels ∧ terms left = terms v := by
  obtain ⟨d, whole, effective⟩ := alone.written grown asked (fun ends => recorded.update ends here) (by simp)
  have linked := recorded.linked s'
  rw [whole] at linked ⊢
  exact shows.update live spec linked effective

theorem Shows.statusUpdated {stored : Workspace} {next : Timestamp} (shows : Shows v (chronicle s))
    (live : v.isBeingDeleted = false) (holds : Holds id (planned next v) w)
    (recorded : Recorded c.manager c.world id chronicle rules)
    (grown : Grown chronicle rules.others id start t (chronicle s))
    (asked : Run.Asked c.world.cancelled (c.world.updateStatus w) (.statusUpdated w) s (some (.ok stored)) piece s')
    (alone : Alone chronicle id fetched (t ++ piece) (chronicle s')) : Shows (planned next v) (chronicle s') := by
  obtain ⟨d, whole, effective⟩ :=
    alone.written grown asked (fun ends => recorded.updateStatus ends holds.identity) (by simp)
  have linked := recorded.linked s'
  rw [whole] at linked ⊢
  exact shows.updateStatus live (sketch_eq.mp holds.alike).2.2 linked effective

theorem ahead_of_delay {minutes : Fin Spread.windowMinutes} {next : Timestamp}
    (due : now.addSeconds? (Spread.delay minutes).seconds = some next) : Ahead now next :=
  ⟨minutes, minutes.isLt, by simpa using due⟩

theorem scheduled_of_planned {next : Timestamp} (live : fetched.isBeingDeleted = false) (ahead : Ahead now next)
    (plain : core w = core (planned next fetched)) (said : terms w = terms (planned next fetched))
    (unmarked : Spread.hasRefreshMarker w = false) : Scheduled now next w := by
  obtain ⟨_, generation, deletion⟩ := core_eq.mp plain
  simp only [terms, planned, Prod.mk.injEq] at said
  exact ⟨deletion.trans live, said.1.trans (congrArg some generation.symm), said.2, ahead, unmarked⟩

theorem sketch_planned {next : Timestamp} (same : sketch w = sketch v) :
    sketch (planned next w) = sketch (planned next v) := by
  obtain ⟨plain, labels, _⟩ := sketch_eq.mp same
  obtain ⟨_, generation, _⟩ := core_eq.mp plain
  exact sketch_eq.mpr ⟨plain, labels, by simp [terms, planned, generation]⟩

theorem knows_refused (purpose : Purpose σ) (error : Error) : Knows id now fetched w l (purpose.refused error) := by
  have broken (name : String) : Knows id now fetched w l (.breakdown name error : Stage σ) := by
    unfold Stage.breakdown
    split <;> trivial
  cases purpose with
  | register sub | release sub => exact broken sub.name
  | unlabel => trivial

theorem knows_of_course (recorded : Recorded c.manager c.world id chronicle rules) (spread : c.manager.spread = true)
    (steady : c.manager.StepsKeep fun w => (w.metadata, w.spec, terms w)) (live : fetched.isBeingDeleted = false)
    (course : Course c id now fetched start t stage w s) (alone : Alone chronicle id fetched t (chronicle s)) :
    Knows id now fetched w (chronicle s) stage := by
  have blind := blind_of_steady steady
  have process : fetched.phase = .process := by simp [Workspace.phase, live]
  -- Up to the status, what is stored and what is in memory are as they were read; then one and after it the other
  -- have the schedule.
  induction course with
  | start | unread | absent | skip | stop | drop | fail | abort | beyond | refuse => trivial
  | note _ _ ih => exact ih (alone.earlier (by simp))
  | @fetch t _ _ _ _ course asked _ _ _ =>
      obtain ⟨rfl, ends⟩ := asked.answered
      exact ⟨⟨fetched, alone.stored course.outset, rfl⟩,
        Holds.alike_of ⟨(recorded.get ends).2 fetched rfl, rfl⟩ (blind.amend ..)⟩
  | pass _ _ _ ih | condemned _ _ ih | conceal _ _ ih => exact ih alone
  | enter _ _ _ ih => exact ⟨(ih alone).1, (ih alone).2.alike_of (blind.amend ..)⟩
  | equipped _ _ _ ih | register _ _ _ ih => exact ⟨(ih alone).1, (ih alone).2.alike_of (blind.finalizers ..)⟩
  | @step _ phase sub _ _ _ _ answer _ _ course asked ih =>
      have member := course.mem_of_agenda List.mem_cons_self
      obtain ⟨before, same⟩ := alone.asked (course.grown recorded).1 asked (recorded.step _ member) (by simp)
      have knows : Shows fetched (chronicle _) ∧ Holds id fetched answer.workspace :=
        ⟨(ih before).1, (ih before).2.alike_of (blind.steps.asked member asked)⟩
      rw [same]
      cases phase <;> exact knows
  | keep _ _ ih | release _ _ ih =>
      exact ⟨(ih alone).1, (ih alone).2.alike_of
        (Workspace.releaseIfIdle_keeps (fun w => (w.id, sketch w)) blind.finalizers ..)⟩
  | @written _ purpose _ _ _ _ _ course asked ih =>
      have grown := (course.grown recorded).1
      have before := alone.past grown asked recorded.update_grows (by simp)
      cases purpose with
      | register | release =>
          obtain ⟨shows, holds⟩ := ih before
          obtain ⟨same, labels, _⟩ := sketch_eq.mp holds.alike
          obtain ⟨left, remains, plain, labelled, said⟩ :=
            shows.updated live (core_eq.mp same).1 holds.identity recorded grown asked alone
          exact ⟨⟨left, remains, sketch_eq.mpr ⟨plain, labelled.trans labels, said⟩⟩, holds.alike_of (blind.version ..)⟩
      | unlabel =>
          intro done
          obtain ⟨next, ahead, shows, here, spec, unmarked⟩ := ih before done
          obtain ⟨left, remains, plain, labelled, said⟩ := shows.updated live spec here recorded grown asked alone
          refine ⟨left, next, remains, scheduled_of_planned live ahead plain said ?_⟩
          rw [Spread.hasRefreshMarker, labelled]
          exact unmarked
  | unwritten => exact knows_refused ..
  | complete _ ih =>
      refine ⟨(ih alone).1, ?_⟩
      split
      · exact (ih alone).2.alike_of (blind.amend ..)
      · exact (ih alone).2
  | report course _ ih =>
      obtain ⟨before, same⟩ := (alone.earlier (by simp)).drift (course.grown recorded).1 (recorded.capture _ _ _)
      rw [same]
      exact ih before
  | conclude _ idle _ =>
      intro done
      simp [schedules, done, spread, process] at idle
  | @schedule _ _ w _ scheduled course _ drawn ih =>
      obtain ⟨before, same⟩ := alone.drift (course.grown recorded).1 (recorded.draw _)
      obtain ⟨shows, holds⟩ := ih before
      rw [same]
      intro _
      obtain ⟨next, due, rfl⟩ := Option.map_eq_some_iff.mp drawn
      refine ⟨shows, next, ahead_of_delay due, Holds.alike_of ?_ (blind.amend ..)⟩
      exact ⟨holds.identity, sketch_planned holds.alike⟩
  | @unchanged _ verdict w s _ same ih =>
      cases verdict with
      | outcome =>
          intro done
          obtain ⟨⟨stored, there, alike⟩, next, ahead, holds⟩ := ih alone done
          obtain ⟨plain, labelled, said⟩ := sketch_eq.mp alike
          -- What it was to say of the schedule, the status has said before.
          have before : terms w = terms fetched := congrArg (fun s => (s.observedGeneration, s.nextReconcile)) same
          have planned := (said.trans before.symm).trans (sketch_eq.mp holds.alike).2.2
          exact ⟨next, ahead, ⟨stored, there, sketch_eq.mpr ⟨plain, labelled, planned⟩⟩, holds⟩
      | failure => trivial
  | @persist _ verdict _ _ _ _ _ course _ asked ih =>
      cases verdict with
      | outcome =>
          intro done
          have grown := (course.grown recorded).1
          have before := alone.past grown asked recorded.updateStatus_grows (by simp)
          obtain ⟨shows, next, ahead, holds⟩ := ih before done
          exact ⟨next, ahead, shows.statusUpdated live holds recorded grown asked alone,
            holds.alike_of (blind.version ..)⟩
      | failure => trivial
  | @vanish _ verdict _ _ _ _ _ _ course _ asked _ gone ih =>
      cases verdict with
      | outcome =>
          intro done
          have before := alone.past (course.grown recorded).1 asked recorded.updateStatus_grows (by simp)
          obtain ⟨_, _, _, holds⟩ := ih before done
          -- A write of a live resource does not find it gone.
          have alive := (core_eq.mp (sketch_eq.mp holds.alike).1).2.2.trans live
          have deleted := gone.deleted
          simp [alive] at deleted
      | failure => trivial
  | @finish _ _ w _ _ unmarked ih =>
      intro done
      obtain ⟨next, ahead, ⟨stored, there, alike⟩, holds⟩ := ih alone done
      obtain ⟨plain, labelled, said⟩ := sketch_eq.mp alike
      have same : stored.labels = _ := labelled.trans (sketch_eq.mp holds.alike).2.1.symm
      refine ⟨stored, next, there, scheduled_of_planned live ahead plain said ?_⟩
      have bare : Spread.hasRefreshMarker w = false := by simpa [unlabels, spread, process] using unmarked
      rw [Spread.hasRefreshMarker, same]
      exact bare
  | unlabel _ _ ih =>
      intro done
      obtain ⟨next, ahead, shows, holds⟩ := ih alone done
      exact ⟨next, ahead, shows, holds.identity, (core_eq.mp (sketch_eq.mp holds.alike).1).1, by
        simp [Spread.hasRefreshMarker, Spread.clearRefreshMarker, Labels.contains, Labels.erase]⟩

end

section

variable {m : Manager σ} {world : World σ} {chronicle : σ → Chronicle} {id : ResourceId} {others : Deed → Prop}
variable {now next : Timestamp} {s s' : σ} {read : Moment σ} {v w : Workspace} {l l' whole : Chronicle}
variable {rans : List (Ran σ (Except Stop Outcome))}

theorem eq_of_drifts (own : ∀ d ∈ whole.drop l.length, d.own = true) (drifts : Chronicle.Drifts others l l')
    (within : l' <+: whole) : l' = l := by
  obtain ⟨more, rfl, foreign⟩ := drifts
  obtain ⟨rest, rfl⟩ := within
  obtain rfl := eq_nil_of_own (fun d member => own d (by simp [member])) fun d member => (foreign d member).1
  simp

theorem getD_since? (next time : Timestamp) : (next.since? time).getD .zero = ⟨(next.since time).toNat⟩ := by
  unfold Timestamp.since?
  split
  · rfl
  · simp only [Option.getD_none, Duration.zero, Duration.mk.injEq]
    omega

theorem Scheduled.skips {c : Cycle σ} {time : Timestamp} (scheduled : Scheduled now next w)
    (spread : c.manager.spread = true) : skips c time w = some ⟨(next.since time).toNat⟩ := by
  have observed : Spread.generationObserved w = true := by simp [Spread.generationObserved, scheduled.observed]
  simp [Reconcile.skips, spread, scheduled.live, Spread.shouldSkip, scheduled.unmarked, observed, Spread.remaining,
    scheduled.due, getD_since?]

theorem waits_of_scheduled (recorded : Recorded m world id chronicle rules) (spread : m.spread = true)
    (there : (chronicle s).stored = some v) (scheduled : Scheduled now next v)
    (own : ∀ d ∈ (chronicle (m.reconcile world id s).state).drop (chronicle s).length, d.own = true) :
    chronicle (m.reconcile world id s).state = chronicle s ∧ Waits world id next v (m.reconcile world id s) := by
  rw [(m.reconcile_attempt world id s).1] at own ⊢
  obtain ⟨time, fetched, left, course⟩ := m.attempt_course world id s
  obtain ⟨grown, _⟩ := course.grown recorded
  have seen {read : Moment σ} {found : Option Workspace} (member : read ∈ (m.attempt world id s).trace)
      (event : read.event = .fetched id (some (.ok found))) : found = some v := by
    obtain ⟨drifts, l, early, late, answered⟩ := grown.read read member _ event
    have same := eq_of_drifts own (((recorded.correlate s).trans drifts).trans early)
      (late.grows.trans (grown.past read member))
    rw [answered found rfl, same, there]
  rcases course.due_or_opened recorded with ⟨⟨read, found, _⟩, due⟩ | ⟨opened, drifts⟩
  · obtain rfl := Option.some.inj (seen found.1 found.2)
    rw [scheduled.skips spread] at due
    simp at due
  · refine ⟨eq_of_drifts own ((recorded.correlate s).trans drifts) List.prefix_rfl, ?_⟩
    have value := m.value_reconcile world id s
    have outset := course.outset
    rcases ended : (m.attempt world id s).value with (error | _) | _ | outcome | outcome
    · rw [ended] at opened value
      obtain ⟨answer, failed, read⟩ := opened
      exact .unread (by rwa [calls_reconcile]) failed value
    · rw [ended] at opened
      exact opened.elim
    · rw [ended] at opened
      have only : calls (m.attempt world id s).trace = [.fetched id (some (.ok none))] := opened
      have among : .fetched id (some (.ok none)) ∈ calls (m.attempt world id s).trace := by simp [only]
      obtain ⟨⟨read, member, event⟩, _⟩ := mem_calls.mp among
      exact absurd (seen member event) (by simp)
    · rw [ended] at opened value outset
      obtain ⟨⟨read, found, rfl, _⟩, _⟩ := outset
      obtain rfl := Option.some.inj (seen found.1 found.2)
      obtain ⟨only, remaining⟩ := opened
      rw [scheduled.skips spread] at remaining
      obtain rfl := Option.some.inj remaining
      exact .skipped (finds_reconcile.mpr found) (by rw [calls_reconcile, only, found.2]) value
    · rw [ended] at opened
      exact opened.elim

theorem waits_of_rounds (recorded : Recorded m world id chronicle rules) (spread : m.spread = true)
    (there : (chronicle s).stored = some v) (scheduled : Scheduled now next v)
    (rounds : Rounds m world id chronicle rules.others s rans s')
    (own : ∀ d ∈ (chronicle s').drop (chronicle s).length, d.own = true) :
    chronicle s' = chronicle s ∧ ∀ ran ∈ rans, Waits world id next v ran := by
  induction rounds with
  | start => exact ⟨rfl, by simp⟩
  | meantime _ drifts ih =>
      obtain ⟨same, waits⟩ := ih fun d member => own d ((drifts.grows.drop _).subset member)
      exact ⟨eq_of_drifts own (same ▸ drifts) List.prefix_rfl, waits⟩
  | @reconcile rans s₁ _ ih =>
      obtain ⟨same, waits⟩ := ih fun d member => own d (((recorded.reconcile_grows s₁).drop _).subset member)
      rw [← same] at own there ⊢
      obtain ⟨kept, last⟩ := waits_of_scheduled recorded spread there scheduled own
      refine ⟨kept, fun ran member => ?_⟩
      rcases List.mem_append.mp member with earlier | final
      · exact waits ran earlier
      · exact List.mem_singleton.mp final ▸ last

/-- Once a reconcile that was not skipped has found nothing left to do, and with nobody else at the resource since it
was read, its generation is observed, the next reconcile is due half a day to a day later, and no label asks for one
before. Every later reconcile is skipped, however late: it calls for nothing but its read. -/
theorem skipped_ever_after (recorded : Recorded m world id chronicle rules) (spread : m.spread = true)
    (steady : m.StepsKeep fun w => (w.metadata, w.spec, terms w))
    (found : Finds id (m.attempt world id s).trace read w) (stored : (chronicle read.after).stored = some w)
    (live : w.isBeingDeleted = false) (awake : ∀ outcome, (m.attempt world id s).value ≠ .ok (.skipped outcome))
    (returned : (m.reconcile world id s).value = .ok .done)
    (rounds : Rounds m world id chronicle rules.others (m.reconcile world id s).state rans s')
    (own : ∀ d ∈ (chronicle s').drop (chronicle read.after).length, d.own = true) :
    ∃ v next, (chronicle (m.reconcile world id s).state).stored = some v ∧
      Scheduled (world.now read.after) next v ∧ chronicle s' = chronicle (m.reconcile world id s).state ∧
      ∀ ran ∈ rans, Waits world id next v ran := by
  obtain ⟨⟨left, course⟩, _, present⟩ := Manager.attempt_finds found
  have grows := rounds.grows recorded
  have same := (m.reconcile_attempt world id s).1
  obtain ⟨mine, whole⟩ := (course.grown recorded).1.past read found.1
  have alone : Alone chronicle id w (m.attempt world id s).trace (chronicle (m.attempt world id s).state) := by
    refine ⟨read, found, stored, mine, whole.symm, fun d member => own d ((grows.drop _).subset ?_)⟩
    rw [same, ← whole]
    simpa using member
  have knows := knows_of_course recorded spread steady live course alone
  rw [m.value_reconcile] at returned
  rcases ended : (m.attempt world id s).value with stop | _ | outcome | outcome
  · simp [ended, Except.map] at returned
  · exact absurd ended present
  · exact absurd ended (awake outcome)
  · rw [ended] at knows returned
    obtain rfl : outcome = .done := Except.ok.inj returned
    obtain ⟨v, next, there, scheduled⟩ := knows rfl
    rw [← same] at there
    refine ⟨v, next, there, scheduled, waits_of_rounds recorded spread there scheduled rounds fun d member => own d ?_⟩
    have longer : (chronicle read.after).length ≤ (chronicle (m.reconcile world id s).state).length := by
      rw [same, ← whole]
      simp
    exact List.drop_subset_drop_left _ longer member

end

section

open Reconciler.Shelf
open ObservedGeneration (issued planner planner_answers)

def asked : Workspace :=
  (issued 3).setLabels (Labels.empty.insert Spread.refreshLabel "true")

def attempted : Ran (Shelf site) (Except Stop Finished) :=
  planner.attempt (Shelf.world site) site (stocked asked [] .epoch)

def first : Ran (Shelf site) (Except Stop Outcome) :=
  planner.reconcile (Shelf.world site) site (stocked asked [] .epoch)

def inAnHour : Shelf site := { first.state with now := ⟨0, 3600, 0, by decide⟩ }

def second : Ran (Shelf site) (Except Stop Outcome) :=
  planner.reconcile (Shelf.world site) site inAnHour

def onTheNextDay : Shelf site := { second.state with now := nextDay }

def third : Ran (Shelf site) (Except Stop Outcome) :=
  planner.reconcile (Shelf.world site) site onTheNextDay

theorem recorded_planner : Recorded planner (Shelf.world site) site Shelf.chronicle rules := by
  have shelved := Shelf.recorded planner fun sub member phase w s answer s' ends => by
    rw [(planner_answers member ends).1]
    exact .refl _ _
  refine shelved.mono (fun _ _ => trivial) ?_ ?_
  · rintro given answer d ⟨store, stored, found, _, _, written, leaves⟩
    refine ⟨stored, found, fun gone => ?_, fun left last => ?_⟩
    · by_contra live
      simp [Deed.left, leaves, written, live] at gone
    · obtain rfl := Option.some.inj (written.symm.trans (Deed.written_of_left last))
      exact ⟨rfl, rfl, fun _ => rfl⟩
  · rintro given answer d ⟨store, stored, found, _, _, written, stays⟩
    refine ⟨stored, found, fun gone => ?_, fun left last => ?_⟩
    · simp [Deed.left, stays, written] at gone
    · obtain rfl := Option.some.inj (written.symm.trans (Deed.written_of_left last))
      exact ⟨rfl, rfl, .inl rfl, .inl rfl⟩

-- The second reconcile after the one that was asked for comes when the next one has been due for half a day.
theorem skipped_ever_after_overdue :
    (∃ v next, first.state.stored = some v ∧ Scheduled .epoch next v ∧
      third.state.chronicle = first.state.chronicle ∧
      ∀ ran ∈ [second, third], Waits (Shelf.world site) site next v ran) ∧
    second.value = .ok (.requeueAfter (.ofMinutes 660)) ∧ third.value = .ok (.requeueAfter .zero) := by
  have steady : planner.StepsKeep fun w => (w.metadata, w.spec, terms w) := by
    intro sub member phase w s answer s' ends
    obtain ⟨_, ⟨⟩⟩ := planner_answers member ends
    rfl
  have hour : Chronicle.Drifts rules.others first.state.chronicle inAnHour.chronicle := .refl _ _
  have day : Chronicle.Drifts rules.others second.state.chronicle onTheNextDay.chronicle := .refl _ _
  have rounds : Rounds planner (Shelf.world site) site Shelf.chronicle rules.others first.state [second, third]
      third.state :=
    .reconcile (.meantime (.reconcile (.meantime .start hour)) day)
  have found : Finds site attempted.trace (attempted.trace.get ⟨1, by decide +kernel⟩)
      (asked.setResourceVersion (some "1")) := finds_get (by decide +kernel)
  have ended : attempted.value = .ok (.reconciled .done) := by decide +kernel
  have awake (outcome : Outcome) : attempted.value ≠ .ok (.skipped outcome) := by simp [ended]
  exact ⟨skipped_ever_after recorded_planner rfl steady found (by decide +kernel) (by decide) awake
    (by decide +kernel) rounds (by decide +kernel), by decide +kernel, by decide +kernel⟩

end

end Skipping

end Reconciler
