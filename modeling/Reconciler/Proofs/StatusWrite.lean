import Reconciler.Proofs.Chronicle.Growth
import Reconciler.Proofs.FinalLedger
import Reconciler.Proofs.LostUpdate
import Reconciler.Proofs.Reporting

set_option autoImplicit false

namespace Reconciler

open Reconcile

variable {σ : Type}

def Event.restates : Event → Bool
  | statusUpdated .. => true
  | _ => false

namespace StatusWrite

structure Undisturbed (world : World σ) (t : List (Moment σ)) (s : σ) : Prop where
  live : world.cancelled s = false
  before : ∀ moment ∈ t, world.cancelled moment.after = false ∧ moment.event.failure? ≠ some .cancelled

structure Arrives (c : Cycle σ) (id : ResourceId) (now : Timestamp) (fetched : Workspace) (start : σ)
    (before : List (Moment σ)) (turnouts : List (Turnout σ)) (verdict : Verdict) (last : Workspace) (s : σ) : Prop where
  course : Course c id now fetched start before (.persisting verdict) last s
  closes : Closes c now fetched turnouts verdict last
  made : calls before = begun id fetched turnouts
  version : (obtained before).map (·.metadata.resourceVersion) = some last.metadata.resourceVersion

def Stood (c : Cycle σ) (id : ResourceId) (now : Timestamp) (fetched : Workspace) (start : σ) (t : List (Moment σ))
    (verdict : Verdict) (last : Workspace) (closing : List Event) : Prop :=
  ∃ before turnouts s, before <+: t ∧ Arrives c id now fetched start before turnouts verdict last s ∧
    calls t = calls before ++ closing ∧
    ((∃ event ∈ closing, event.restates = true) ↔
      Undisturbed c.world before s ∧ last.currentStatus ≠ fetched.currentStatus)

inductive Onward (c : Cycle σ) (fetched kept : Workspace) : Verdict → List Event → Except Stop Finished → Prop where
  | failed {error} : Onward c fetched kept (.failure error) [] (.error (.error error))
  | finished {outcome} :
      unlabels c fetched.phase kept = false → Onward c fetched kept (.outcome outcome) [] (.ok (.reconciled outcome))
  | unlabelled {outcome stored} :
      unlabels c fetched.phase kept = true →
      Onward c fetched kept (.outcome outcome) [.updated (Spread.clearRefreshMarker kept).1 (some (.ok stored))]
        (.ok (.reconciled outcome))
  | labelled {outcome error} :
      unlabels c fetched.phase kept = true →
      Onward c fetched kept (.outcome outcome) [.updated (Spread.clearRefreshMarker kept).1 (some (.error error))]
        (.error (.error error))
  | cutOff {outcome more} :
      unlabels c fetched.phase kept = true → more = [] ∨ more = [.updated (Spread.clearRefreshMarker kept).1 none] →
      Onward c fetched kept (.outcome outcome) more (.error (.error .cancelled))

inductive Settles (c : Cycle σ) (fetched last : Workspace) : Verdict → List Event → Except Stop Finished → Prop where
  | kept {verdict writes kept more value} :
      StatusKept fetched last writes kept → Onward c fetched kept verdict more value →
      Settles c fetched last verdict (writes ++ more) value
  | refused {verdict error} :
      last.currentStatus ≠ fetched.currentStatus → ¬Vanished last error →
      Settles c fetched last verdict [.statusUpdated last (some (.error error))]
        (.error (.error (verdict.error error)))
  | cutOff {verdict writes} :
      last.currentStatus ≠ fetched.currentStatus → writes = [] ∨ writes = [.statusUpdated last none] →
      Settles c fetched last verdict writes (.error (.error (verdict.error .cancelled)))

-- What becomes of the status in a reconcile.
inductive Fate (c : Cycle σ) (id : ResourceId) (now : Timestamp) (fetched : Workspace) (start : σ)
    (t : List (Moment σ)) (s : σ) : Except Stop Finished → Prop where
  | idle {value} :
      (∀ read w, ¬Finds id t read w) ∨ (skips c now fetched).isSome = true →
      (∀ event ∈ calls t, event.isWrite = false) → Fate c id now fetched start t s value
  | cutShort :
      Cancellation.CutShort c id now fetched (calls t) → c.world.cancelled s = true →
      Fate c id now fetched start t s (.error (.error .cancelled))
  | dropped {turnouts subroutine w} :
      Broken c now fetched turnouts subroutine .cancelled w → calls t = begun id fetched turnouts →
      Fate c id now fetched start t s (.error (.error .cancelled))
  | beyond {turnouts w outcome minutes} :
      Progress c now fetched turnouts w [] outcome → schedules c fetched.phase outcome = true →
      Spread.scheduleNext? w now minutes = none → calls t = begun id fetched turnouts →
      Fate c id now fetched start t s (.error .beyondCalendar)
  | settled {verdict last closing value} :
      Stood c id now fetched start t verdict last closing → Settles c fetched last verdict closing value →
      Fate c id now fetched start t s value

def Fated (c : Cycle σ) (id : ResourceId) (now : Timestamp) (fetched : Workspace) (start : σ) (t : List (Moment σ))
    (w : Workspace) (s : σ) : Stage σ → Prop
  | .unlabelling outcome =>
      ∃ last writes, Stood c id now fetched start t (.outcome outcome) last writes ∧ StatusKept fetched last writes w
  | .writing (.unlabel outcome) =>
      ∃ last writes kept, Stood c id now fetched start t (.outcome outcome) last writes ∧
        StatusKept fetched last writes kept ∧ unlabels c fetched.phase kept = true ∧
        w = (Spread.clearRefreshMarker kept).1
  | .reporting _ next => Fated c id now fetched start t w s next
  | .ended value => Fate c id now fetched start t s value
  | _ => True

def current (events : List Event) : Option (Option String) :=
  (events.filterMap Event.obtained?).getLast?.map (·.metadata.resourceVersion)

section

variable {c : Cycle σ} {id : ResourceId} {now : Timestamp} {fetched : Workspace} {start s s' : σ}
variable {t piece : List (Moment σ)} {moment : Moment σ} {w found left : Workspace} {stage : Stage σ}
variable {events own : List Event} {phase : Phase} {sub : Subroutine σ} {turnouts : List (Turnout σ)}

section

theorem obtained_eq_current : (obtained t).map (·.metadata.resourceVersion) = current (calls t) := by
  have same : t.filterMap (·.event.obtained?) = (calls t).filterMap Event.obtained? := by
    rw [calls, List.filterMap_filter, List.filterMap_map]
    refine List.filterMap_congr fun moment _ => ?_
    rcases moment with ⟨event, _, _⟩
    cases event <;> rfl
  rw [obtained, same]
  rfl

theorem current_snoc_of_none {event : Event} (other : event.obtained? = none) :
    current (events ++ [event]) = current events := by
  simp [current, other]

theorem current_updated (given stored : Workspace) :
    current (events ++ [.updated given (some (.ok stored))]) = some stored.metadata.resourceVersion := by
  simp [current, Event.obtained?]

theorem current_persisted {changed : Workspace × Bool} (persisted : Persisted changed own w)
    (before : current events = some changed.1.metadata.resourceVersion) :
    current (events ++ own) = some w.metadata.resourceVersion := by
  cases persisted with
  | spared => simpa using before
  | written => exact current_updated ..

theorem version_entered :
    (entered c phase now sub found).metadata.resourceVersion = found.metadata.resourceVersion := by
  simp [entered]

theorem version_released (tokens : List Finalizer.Token) (result : Except OperatorError Outcome) (w : Workspace) :
    (w.releaseIfIdle tokens result).1.metadata.resourceVersion = w.metadata.resourceVersion :=
  Workspace.releaseIfIdle_keeps (·.metadata.resourceVersion) (fun _ _ => rfl) tokens result w

theorem current_turns {result : Option (Except Error Outcome)} (steady : c.manager.StepsKeep Workspace.metadata)
    (member : sub ∈ c.manager.subroutines) (turns : Turns c phase now sub found own result left)
    (before : current events = some found.metadata.resourceVersion) :
    current (events ++ own) = some left.metadata.resourceVersion := by
  have entry : current events = some (entered c phase now sub found).metadata.resourceVersion := by
    rw [before, version_entered]
  cases turns with
  | passed => simpa using before
  | taken _ taken =>
      rw [SweepOrder.metadata_concluded]
      cases taken with
      | processed _ persisted ends =>
          rw [← List.append_assoc, current_snoc_of_none rfl, steady sub member .process _ _ _ _ ends]
          exact current_persisted persisted entry
      | @finalized _ answer _ _ _ _ ends persisted =>
          rw [List.append_cons]
          refine current_persisted persisted ?_
          rw [current_snoc_of_none rfl, entry, version_released, steady sub member .finalize _ _ _ _ ends]
  | unregistered => exact (current_snoc_of_none rfl).trans entry
  | unreleased _ _ ends _ =>
      rw [List.append_cons, current_snoc_of_none rfl, current_snoc_of_none rfl, entry, version_released,
        steady sub member .finalize _ _ _ _ ends]

theorem current_sweeps (steady : c.manager.StepsKeep Workspace.metadata)
    (among : ∀ o ∈ turnouts, o.sub ∈ c.manager.subroutines)
    (sweeps : Sweeps c phase now (first c now fetched) turnouts w) :
    current (begun id fetched turnouts) = some w.metadata.resourceVersion := by
  induction sweeps with
  | start => simp [begun, current, Event.obtained?, first]
  | @turn turnouts o _ _ turns ih =>
      rw [begun_snoc]
      refine current_turns steady (among o (by simp)) turns ?_
      exact ih fun earlier member => among earlier (by simp [member])

end

theorem undisturbed_of_live {verdict : Verdict} (latched : Cancellation.Latched c.world)
    (course : Course c id now fetched start t (.persisting verdict) w s) (live : c.world.cancelled s = false) :
    Undisturbed c.world t s := by
  -- A call that says it was cancelled is a failure, and the only one before the status is the verdict: another error.
  refine ⟨live, fun moment member => ⟨?_, fun failure => ?_⟩⟩
  · by_contra cancelled
    simp [(Cancellation.watched_of_course latched course).lasting moment member (by simpa using cancelled)] at live
  · have call : moment.event.isCall = true := by
      rcases moment with ⟨event, _, _⟩
      cases event <;> simp_all [Event.failure?, Event.refusal?, Event.isCall]
    have among : .cancelled ∈ failures (calls t) :=
      List.mem_filterMap.mpr ⟨moment.event, mem_calls.mpr ⟨⟨moment, member, rfl⟩, call⟩, failure⟩
    have sole := Reporting.sole_of_course course
    cases verdict with
    | outcome => simp [show failures (calls t) = [] from sole] at among
    | failure error =>
        rw [sole.1] at among
        exact sole.2 (List.mem_singleton.mp among).symm

theorem arrives_of_course {verdict : Verdict} (steady : c.manager.StepsKeep Workspace.metadata)
    (course : Course c id now fetched start t (.persisting verdict) w s) :
    ∃ turnouts, Arrives c id now fetched start t turnouts verdict w s := by
  obtain ⟨turnouts, closes, made⟩ := course.accounts
  obtain ⟨left, sweeps, order, same, _⟩ := closes.swept
  refine ⟨turnouts, course, closes, made, ?_⟩
  rw [obtained_eq_current, made, same]
  exact current_sweeps steady (fun o member => order.subset (List.mem_map_of_mem member)) sweeps

section

variable {verdict : Verdict} {last : Workspace} {closing more : List Event}

theorem Stood.append (stood : Stood c id now fetched start t verdict last closing)
    (made : calls (t ++ piece) = calls t ++ more) (other : ∀ event ∈ more, event.restates = false) :
    Stood c id now fetched start (t ++ piece) verdict last (closing ++ more) := by
  obtain ⟨before, turnouts, s, early, arrives, whole, written⟩ := stood
  refine ⟨before, turnouts, s, early.trans (List.prefix_append ..), arrives, by simp [made, whole], ?_⟩
  rw [← written]
  constructor
  · rintro ⟨event, member, restates⟩
    rcases List.mem_append.mp member with earlier | late
    · exact ⟨event, earlier, restates⟩
    · simp [other event late] at restates
  · rintro ⟨event, member, restates⟩
    exact ⟨event, List.mem_append_left _ member, restates⟩

theorem Stood.quiet (stood : Stood c id now fetched start t verdict last closing)
    (uncalled : moment.event.isCall = false) : Stood c id now fetched start (t ++ [moment]) verdict last closing := by
  have made : calls (t ++ [moment]) = calls t ++ [] := by simp [calls_snoc_of_not uncalled]
  simpa using stood.append made (by simp)

theorem stood_of_same (steady : c.manager.StepsKeep Workspace.metadata)
    (course : Course c id now fetched start t (.persisting verdict) w s)
    (same : w.currentStatus = fetched.currentStatus) : Stood c id now fetched start t verdict w [] := by
  obtain ⟨turnouts, arrives⟩ := arrives_of_course steady course
  exact ⟨t, turnouts, s, List.prefix_refl t, arrives, by simp, by simp [same]⟩

theorem stood_of_asked {answer : Option (Except Error Workspace)} (steady : c.manager.StepsKeep Workspace.metadata)
    (latched : Cancellation.Latched c.world) (course : Course c id now fetched start t (.persisting verdict) w s)
    (differs : w.currentStatus ≠ fetched.currentStatus)
    (asked : Run.Asked c.world.cancelled (c.world.updateStatus w) (.statusUpdated w) s answer piece s') :
    ∃ closing, Stood c id now fetched start (t ++ piece) verdict w closing ∧
      (closing = [.statusUpdated w answer] ∨ answer = none ∧ closing = []) := by
  obtain ⟨turnouts, arrives⟩ := arrives_of_course steady course
  cases asked with
  | unasked stopped =>
      refine ⟨[], ⟨t, turnouts, s, by simp, arrives, by simp, ?_⟩, .inr ⟨rfl, rfl⟩⟩
      simpa using fun undisturbed : Undisturbed c.world t s => absurd undisturbed.live (by simp [stopped])
  | asked live _ =>
      refine ⟨_, ⟨t, turnouts, s, List.prefix_append .., arrives, by simp [calls, Event.isCall], ?_⟩, .inl rfl⟩
      simpa [Event.restates] using ⟨undisturbed_of_live latched course live, differs⟩

theorem Fate.quiet {value : Except Stop Finished} (fate : Fate c id now fetched start t s value)
    (uncalled : moment.event.isCall = false) (latch : c.world.cancelled s = true → c.world.cancelled s' = true) :
    Fate c id now fetched start (t ++ [moment]) s' value := by
  have same := calls_snoc_of_not (t := t) uncalled
  cases fate with
  | idle reason unwritten =>
      refine .idle (reason.imp_left fun never => not_finds_snoc never (ne_fetched_of_quiet uncalled)) ?_
      rwa [same]
  | cutShort cut cancelled => exact .cutShort (same ▸ cut) (latch cancelled)
  | dropped broken made => exact .dropped broken (same.trans made)
  | beyond progress due drawn made => exact .beyond progress due drawn (same.trans made)
  | settled stood settles => exact .settled (stood.quiet uncalled) settles

theorem Fated.quiet (fated : Fated c id now fetched start t w s stage) (uncalled : moment.event.isCall = false)
    (latch : c.world.cancelled s = true → c.world.cancelled s' = true) :
    Fated c id now fetched start (t ++ [moment]) w s' stage := by
  induction stage with
  | reporting _ _ ih => exact ih fated
  | ended => exact Fate.quiet fated uncalled latch
  | unlabelling =>
      obtain ⟨last, writes, stood, status⟩ := fated
      exact ⟨last, writes, stood.quiet uncalled, status⟩
  | writing purpose =>
      cases purpose with
      | unlabel =>
          obtain ⟨last, writes, kept, stood, status, marked⟩ := fated
          exact ⟨last, writes, kept, stood.quiet uncalled, status, marked⟩
      | register | release => trivial
  | _ => trivial

theorem unwritten_of_asked {answer : Option (Except Error (Option Workspace))} (nothing : calls t = [])
    (asked : Run.Asked c.world.cancelled (c.world.get id) (.fetched id) s answer piece s') :
    ∀ event ∈ calls (t ++ piece), event.isWrite = false := by
  rcases calls_of_read nothing asked with read | ⟨read, _⟩ <;> simp [read, Event.isWrite]

theorem fated_next {writes : List Event} (stood : Stood c id now fetched start t verdict last writes)
    (status : StatusKept fetched last writes w) : Fated c id now fetched start t w s verdict.next := by
  cases verdict with
  | outcome => exact ⟨last, writes, stood, status⟩
  | failure => exact .settled stood (by simpa using Settles.kept status Onward.failed)

theorem fated_breakdown {subroutine : String} {error : Error}
    (cancelled : error = .cancelled → Fate c id now fetched start t s (.error (.error .cancelled))) :
    Fated c id now fetched start t w s (.breakdown subroutine error) := by
  unfold Stage.breakdown
  split
  · rename_i same
    exact cancelled same
  · trivial

theorem fated_refused {purpose : Purpose σ} {answer : Option (Except Error Workspace)} {error : Error}
    (course : Course c id now fetched start t (.writing purpose) w s)
    (fated : Fated c id now fetched start t w s (.writing purpose))
    (asked : Run.Asked c.world.cancelled (c.world.update w) (.updated w) s answer piece s')
    (answered : answer.getD (.error .cancelled) = .error error) :
    Fated c id now fetched start (t ++ piece) w s' (purpose.refused error) := by
  have there := course.accounts
  rcases answer with _ | answer
  · obtain ⟨_, more, start, made⟩ := calls_cut asked rfl
    obtain rfl : .cancelled = error := by simpa using answered
    cases purpose with
    | register | release =>
        refine fated_breakdown fun _ => .cutShort ?_ asked.stopped
        rw [made]
        exact Cancellation.cutShort_writing there (List.cons_ne_nil _ _) start
    | unlabel =>
        obtain ⟨last, writes, kept, stood, status, marked, rfl⟩ := fated
        refine Fate.settled (stood.append made ?_) (.kept status (.cutOff marked start))
        rcases start with rfl | rfl <;> simp [Event.restates]
  · obtain rfl : answer = .error error := answered
    have made := calls_answered (t := t) asked rfl
    cases purpose with
    | register | release =>
        obtain ⟨turnouts, broken, whole⟩ := broken_of_refused there rfl error
        refine fated_breakdown ?_
        rintro rfl
        exact .dropped broken (made.trans whole)
    | unlabel =>
        obtain ⟨last, writes, kept, stood, status, marked, rfl⟩ := fated
        exact Fate.settled (stood.append made (by simp [Event.restates])) (.kept status (.labelled marked))

theorem fated_of_course (steady : c.manager.StepsKeep Workspace.metadata) (latched : Cancellation.Latched c.world)
    (course : Course c id now fetched start t stage w s) : Fated c id now fetched start t w s stage := by
  -- Up to the write of the status the course itself says where things stand; from there on its fate is followed.
  induction course with
  | note _ _ ih => exact ih.quiet rfl (fun stopped => stopped)
  | @report _ error _ _ s _ _ ih => exact ih.quiet rfl (latched.capture error c.tags s)
  | conceal _ _ ih => exact ih
  | unread before asked answered =>
      refine Fate.idle (.inl ((fetched_of_asked before.outset asked).2 ?_)) (unwritten_of_asked before.accounts asked)
      rintro w rfl
      simp at answered
  | absent before asked =>
      exact Fate.idle (.inl ((fetched_of_asked before.outset asked).2 (by simp)))
        (unwritten_of_asked before.accounts asked)
  | skip before asked _ due =>
      exact Fate.idle (.inr (by simp [due])) (unwritten_of_asked before.accounts asked)
  | stop before stopped => exact Fate.cutShort (Cancellation.cutShort_sweeping before.accounts) stopped
  | drop before asked =>
      obtain ⟨_, more, start, made⟩ := calls_cut asked rfl
      refine Fate.cutShort ?_ asked.stopped
      rw [made]
      exact Cancellation.cutShort_stepping before.accounts start
  | beyond before due drawn =>
      obtain ⟨turnouts, progress, made⟩ := before.accounts
      exact Fate.beyond progress due drawn made
  | unwritten before asked answered ih => exact fated_refused before ih asked answered
  | @written t purpose _ _ _ _ _ _ asked ih =>
      cases purpose with
      | register | release => trivial
      | unlabel =>
          obtain ⟨last, writes, kept, stood, status, marked, rfl⟩ := ih
          have made := calls_answered (t := t) asked rfl
          exact Fate.settled (stood.append made (by simp [Event.restates])) (.kept status (.unlabelled marked))
  | unchanged before same => exact fated_next (stood_of_same steady before same) (.same same)
  | persist before differs asked =>
      obtain ⟨closing, stood, rfl | ⟨none, _⟩⟩ := stood_of_asked steady latched before differs asked
      · exact fated_next stood (.stored differs)
      · simp at none
  | @vanish _ _ _ _ answer _ _ error before differs asked answered gone =>
      rcases answer with _ | answer
      · obtain rfl : .cancelled = error := by simpa using answered
        exact absurd gone (not_vanished_cancelled _)
      · obtain rfl : answer = .error error := answered
        obtain ⟨closing, stood, rfl | ⟨none, _⟩⟩ := stood_of_asked steady latched before differs asked
        · exact fated_next stood (.gone differs gone)
        · simp at none
  | @refuse _ _ _ _ answer _ _ error before differs asked answered lasting =>
      obtain ⟨closing, stood, made⟩ := stood_of_asked steady latched before differs asked
      rcases answer with _ | answer
      · obtain rfl : .cancelled = error := by simpa using answered
        exact Fate.settled stood (.cutOff differs (made.symm.imp_left And.right))
      · obtain rfl : answer = .error error := answered
        obtain rfl := made.resolve_right fun none => by simp at none
        exact Fate.settled stood (.refused differs lasting)
  | finish _ unmarked ih =>
      obtain ⟨last, writes, stood, status⟩ := ih
      exact Fate.settled stood (by simpa using Settles.kept status (Onward.finished unmarked))
  | unlabel _ marked ih =>
      obtain ⟨last, writes, stood, status⟩ := ih
      exact ⟨last, writes, _, stood, status, marked, rfl⟩
  | @step _ phase => cases phase <;> trivial
  | _ => trivial

end

theorem unstated_of_recounts {closing : List Event} (recounts : Recounts c id now fetched t turnouts closing) :
    (calls t).countP Event.restates = closing.countP Event.restates := by
  have none : (begun id fetched turnouts).countP Event.restates = 0 := by
    refine List.countP_eq_zero.mpr fun event member => ?_
    cases event with
    | statusUpdated given answer => exact absurd member (FinalLedger.not_statusUpdated_of_begun recounts given answer)
    | _ => simp [Event.restates]
  rw [recounts.made, List.countP_append, none, Nat.zero_add]

theorem unstated_of_severed (severed : Cancellation.Severed c phase now sub found own) :
    own.countP Event.restates = 0 := by
  cases severed with
  | waiting => rfl
  | registering _ _ start | finalizing _ start | releasing _ _ _ start =>
      rcases start with rfl | rfl <;> simp [Event.restates]
  | processing _ persisted start =>
      cases persisted <;> rcases start with rfl | rfl <;> simp [Event.restates]

theorem once_of_settles {verdict : Verdict} {last : Workspace} {closing : List Event} {value : Except Stop Finished}
    (settles : Settles c fetched last verdict closing value) : closing.countP Event.restates ≤ 1 := by
  cases settles with
  | refused => simp [Event.restates]
  | cutOff _ start => rcases start with rfl | rfl <;> simp [Event.restates]
  | @kept writes _ more _ status onward =>
      have first : writes.countP Event.restates ≤ 1 := by cases status <;> simp [Event.restates]
      have rest : more.countP Event.restates = 0 := by
        cases onward with
        | failed | finished | unlabelled | labelled => simp [Event.restates]
        | cutOff _ start => rcases start with rfl | rfl <;> simp [Event.restates]
      rwa [List.countP_append, rest, Nat.add_zero]

theorem once_of_fate {value : Except Stop Finished} (fate : Fate c id now fetched start t s value) :
    (calls t).countP Event.restates ≤ 1 := by
  cases fate with
  | idle _ unwritten =>
      refine le_of_eq_of_le (List.countP_eq_zero.mpr fun event member => ?_) (Nat.zero_le 1)
      have other := unwritten event member
      cases event <;> simp_all [Event.restates, Event.isWrite]
  | cutShort cut _ =>
      obtain ⟨_, _, _, _, _, own, progress, severed, made⟩ := cut
      rw [unstated_of_recounts (progress.recounts made), unstated_of_severed severed]
      exact Nat.zero_le 1
  | dropped broken made =>
      rw [unstated_of_recounts (broken.recounts (made.trans (List.append_nil _).symm))]
      exact Nat.zero_le 1
  | beyond progress _ _ made =>
      rw [unstated_of_recounts (progress.recounts (made.trans (List.append_nil _).symm))]
      exact Nat.zero_le 1
  | settled stood settles =>
      obtain ⟨before, turnouts, _, _, arrives, made, _⟩ := stood
      rw [unstated_of_recounts (arrives.closes.recounts (arrives.made ▸ made))]
      exact once_of_settles settles

end

section

variable {m : Manager σ} {world : World σ} {id : ResourceId}

/-- The status is written at most once in a reconcile, and once its turns are over, exactly if it has changed and the
reconcile is not cancelled. -/
theorem written_iff_changed (statusOnly : m.StepsKeep fun w => (w.metadata, w.spec))
    (latched : Cancellation.Latched world) (s : σ) :
    let ran := m.reconcile world id s
    ∃ now fetched value, (∀ read w, Finds id ran.trace read w → fetched = w ∧ now = world.now read.after) ∧
      ran.value = value.map Finished.outcome ∧ (calls ran.trace).countP Event.restates ≤ 1 ∧
      Fate (m.cycle world id (world.correlate s).1) id now fetched (world.correlate s).2 ran.trace ran.state value := by
  obtain ⟨now, fetched, left, course⟩ := m.attempt_course world id s
  have steady : m.StepsKeep Workspace.metadata := fun sub member phase w s answer s' ends =>
    congrArg Prod.fst (statusOnly sub member phase w s answer s' ends)
  have fate : Fate _ id now fetched _ _ _ _ := fated_of_course steady latched course
  have whole := Manager.reconcile_of_attempt (P := (Fate _ id now fetched _ · _ _)) fate fun _ _ _ earlier =>
    earlier.quiet rfl fun cancelled => cancelled
  rw [← (m.reconcile_attempt world id s).1] at whole
  refine ⟨now, fetched, _, fun read w found => ?_, m.value_reconcile world id s, once_of_fate whole, whole⟩
  exact course.found_eq (finds_reconcile.mp found)

end

section

open Reconciler.Shelf

def undertaker : Manager (Shelf site) where
  operator := "converge"
  controller := "workspaces"
  subroutines := [worker "volume" ["volume"] leave leave]
  conditions := true
  faultless := by decide

def condemned : Workspace :=
  Edit.apply (.condemn .epoch) (web.setFinalizers ["volume"])

def buried : Ran (Shelf site) (Except Stop Outcome) :=
  undertaker.reconcile (Shelf.world site) site (stocked condemned [] .epoch)

theorem written_iff_changed_buried :
    buried.value = .ok .done ∧ buried.state.stored = none ∧ (calls buried.trace).countP Event.restates = 1 ∧
      ∃ now value, Fate (undertaker.cycle (Shelf.world site) site "") site now
        (condemned.setResourceVersion (some "1")) (stocked condemned [] .epoch) buried.trace buried.state value := by
  have steady : undertaker.StepsKeep fun w => (w.metadata, w.spec) := by
    intro sub member phase w s answer s' ends
    simp only [undertaker, List.mem_singleton] at member
    subst member
    obtain ⟨_, same | same⟩ := answer_of_worker ends <;> cases same <;> rfl
  have latched : Cancellation.Latched (Shelf.world site) :=
    ⟨fun _ stopped => stopped, fun _ stopped => stopped, fun _ _ _ stopped => stopped⟩
  have found : Finds site buried.trace (buried.trace.get ⟨1, by decide +kernel⟩)
      (condemned.setResourceVersion (some "1")) := finds_get (by decide +kernel)
  obtain ⟨now, fetched, value, same, _, _, fate⟩ :=
    written_iff_changed steady latched (stocked condemned [] .epoch)
  obtain ⟨rfl, _⟩ := same _ _ found
  exact ⟨by decide +kernel, by decide +kernel, by decide +kernel, now, value, fate⟩

end

end StatusWrite

end Reconciler
