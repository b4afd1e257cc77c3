import Reconciler.Proofs.Course.Basic

set_option autoImplicit false

namespace Reconciler.Course

open Reconcile

variable {σ : Type} {c : Cycle σ} {id : ResourceId} {now : Timestamp} {fetched : Workspace} {start : σ}
variable {t : List (Moment σ)} {w : Workspace} {s : σ} {stage : Stage σ}

theorem notes_course (records : List Log.Record) (course : Course c id now fetched start t stage w s) :
    Course c id now fetched start (t ++ records.map fun record => ⟨.logged record, s, s⟩) stage w s := by
  induction records generalizing t with
  | nil => simpa using course
  | cons record rest ih => simpa [List.append_assoc] using ih (course.note record)

theorem log_course (spans : List Log.Span) (note : Log.Note)
    (course : Course c id now fetched start t stage w s) :
    Course c id now fetched start (t ++ (Cycle.log { c with spans := spans } note s).trace) stage w s :=
  course.note ⟨note, spans⟩

theorem logAll_course (spans : List Log.Span) (notes : List Log.Note)
    (course : Course c id now fetched start t stage w s) :
    Course c id now fetched start (t ++ (Cycle.logAll { c with spans := spans } notes s).trace) stage w s := by
  simpa [Cycle.logAll, Function.comp_def] using notes_course (notes.map fun note => ⟨note, spans⟩) course

theorem report_course (spans : List Log.Span) {error : Error}
    (course : Course c id now fetched start t (.reporting error stage) w s) :
    Course c id now fetched start (t ++ (Cycle.report { c with spans := spans } error s).trace) stage w
      (Cycle.report { c with spans := spans } error s).state := by
  by_cases reported : error.shouldReport = true
  · have next := logAll_course spans (c.world.capture error c.tags s).1 (course.report reported)
    simpa [Cycle.report, reported, Run.bind_apply, Cycle.logAll] using next
  · have next := course.conceal (by simpa using reported)
    simpa [Cycle.report, reported, Run.pure_apply] using next

theorem storeFailed_course (spans : List Log.Span) (doing : String) {error : Error}
    (course : Course c id now fetched start t (.reporting error stage) w s) :
    Course c id now fetched start (t ++ (Cycle.storeFailed { c with spans := spans } doing error s).trace) stage w
      (Cycle.storeFailed { c with spans := spans } doing error s).state := by
  by_cases news : error = .cancelled
  · simpa [Cycle.storeFailed, news, Run.bind_apply, Run.pure_apply] using report_course spans (news ▸ course)
  · have next := report_course spans (log_course spans
      { level := .error, target := Cycle.target, message := doing, fields := [("error", .text error.message)] } course)
    simpa [Cycle.storeFailed, news, Run.bind_apply, Cycle.log, List.append_assoc] using next

theorem eq_some_of_getD_ok {α : Type} {answer : Option (Except Error α)} {value : α}
    (answered : answer.getD (.error .cancelled) = .ok value) : answer = some (.ok value) := by
  cases answer <;> simp_all

theorem persistMetadata_course (spans : List Log.Span) {purpose : Purpose σ}
    (course : Course c id now fetched start t (.writing purpose) w s) :
    let ran := Cycle.persistMetadata { c with spans := spans } w s
    (∀ written, ran.value = .ok written →
      Course c id now fetched start (t ++ ran.trace) purpose.next written ran.state) ∧
    (∀ error, ran.value = .error error →
      Course c id now fetched start (t ++ ran.trace) (purpose.refused error) w ran.state) := by
  have asked := Run.asked_guarded c.world.cancelled (c.world.update w) (.updated w) s
  simp only [Cycle.persistMetadata, Cycle.update, Cycle.ask, Run.bind_apply, Run.pure_apply]
  generalize Run.guarded c.world.cancelled (c.world.update w) (.updated w) s = ran at asked
  rcases ran with ⟨answer, s', piece⟩
  rcases answered : answer.getD (.error .cancelled) with error | stored
  · have next := storeFailed_course spans "failed to update instance" (course.unwritten asked answered)
    simpa [answered, Run.bind_apply, Run.pure_apply, List.append_assoc] using next
  · obtain rfl := eq_some_of_getD_ok answered
    simpa [Run.pure_apply] using course.written asked

theorem invoke_course (spans : List Log.Span) {phase : Phase} {sub : Subroutine σ} {todo : List (Subroutine σ)}
    {outcome : Outcome} (course : Course c id now fetched start t (.stepping phase sub todo outcome) w s) :
    let ran := Turn.invoke { c with spans := spans } sub phase w s
    (∀ answer, ran.value = some answer →
      Course c id now fetched start (t ++ ran.trace) (.afterStep phase sub todo outcome answer.result)
        answer.workspace ran.state) ∧
    (ran.value = none →
      Course c id now fetched start (t ++ ran.trace) (.ended (.error (.error .cancelled))) w ran.state) := by
  have asked := Run.asked_guarded c.world.cancelled (sub.step phase w) (.stepped sub.name phase w) s
  simp only [Turn.invoke, Run.bind_apply]
  generalize Run.guarded c.world.cancelled (sub.step phase w) (.stepped sub.name phase w) s = ran at asked
  rcases ran with ⟨answer | answer, s', piece⟩
  · simpa [Run.pure_apply] using course.drop asked
  · have next := logAll_course spans answer.notes (course.step asked)
    simpa [Run.bind_apply, Run.pure_apply, Cycle.logAll, List.append_assoc] using next

def Turned (c : Cycle σ) (id : ResourceId) (now : Timestamp) (fetched : Workspace) (start : σ)
    (t : List (Moment σ)) (sub : Subroutine σ) (todo : List (Subroutine σ)) (outcome : Outcome)
    (ran : Ran σ Turn) : Prop :=
  (∀ asked, ran.value.result = .ok asked →
    Course c id now fetched start (t ++ ran.trace) (.sweeping todo (outcome.merge asked))
      (if asked.isDone then c.amend (Ledger.complete now sub.name fetched.phase) ran.value.workspace
        else ran.value.workspace) ran.state) ∧
  (∀ error, ran.value.result = .error error →
    Course c id now fetched start (t ++ ran.trace) (.breakdown sub.name error) ran.value.workspace ran.state)

theorem close_course (spans : List Log.Span) {sub : Subroutine σ} {todo : List (Subroutine σ)}
    {outcome : Outcome} {result : Except OperatorError Outcome}
    (course : Course c id now fetched start t (.settled sub todo outcome result) w s) :
    Turned c id now fetched start t sub todo outcome (Turn.close { c with spans := spans } sub w result s) := by
  cases result with
  | ok asked =>
      have next := (log_course spans ⟨.debug, Turn.target, "end subroutine", asked.fields⟩ course).complete
      simpa [Turned, Turn.close, Turn.debug, Run.bind_apply, Run.pure_apply, Cycle.log] using next
  | error failure =>
      have next := report_course spans (log_course spans ⟨.error, Turn.target, "subroutine ended with error",
        [("error", .text failure.message), ("retry", .flag failure.retry)]⟩ course.fail)
      simpa [Turned, Turn.close, Run.bind_apply, Run.map_apply, Cycle.log, Stage.breakdown,
        List.append_assoc] using next

theorem persistFinalizers_course (spans : List Log.Span) (doing : String) {changed : Bool}
    (purpose : Purpose σ)
    (idle : changed = false → Course c id now fetched start t purpose.next w s)
    (busy : changed = true → Course c id now fetched start t (.writing purpose) w s) :
    let ran := Turn.persistFinalizers { c with spans := spans } doing changed w s
    (∀ written, ran.value = .ok written →
      Course c id now fetched start (t ++ ran.trace) purpose.next written ran.state) ∧
    (∀ error, ran.value = .error error →
      Course c id now fetched start (t ++ ran.trace) (purpose.refused error) w ran.state) := by
  cases changed with
  | false => simpa [Turn.persistFinalizers, Run.pure_apply] using idle rfl
  | true =>
      have next := persistMetadata_course spans
        (log_course spans ⟨.debug, Turn.target, doing, []⟩ (busy rfl))
      simpa [Turn.persistFinalizers, Turn.debug, Run.bind_apply, Cycle.log, List.append_assoc] using next

theorem process_course (spans : List Log.Span) {sub : Subroutine σ} {todo : List (Subroutine σ)}
    {outcome : Outcome} (course : Course c id now fetched start t (.turning sub todo outcome) w s)
    (live : w.isBeingDeleted = false) :
    Turned c id now fetched start t sub todo outcome (Turn.process { c with spans := spans } sub w s) := by
  have persisted := persistFinalizers_course spans "registering finalizers"
    (.register sub todo outcome) (course.equipped live) (course.register live)
  simp only [Turn.process, Run.bind_apply]
  generalize Turn.persistFinalizers _ _ _ _ s = first at persisted
  rcases first with ⟨error | w', s', piece⟩
  · simpa [Turned, Purpose.refused, Run.pure_apply] using persisted.2 error rfl
  · have invoked := invoke_course spans (persisted.1 w' rfl)
    simp only [Run.bind_apply]
    generalize Turn.invoke _ sub .process w' s' = second at invoked
    rcases second with ⟨answer | answer, s'', piece'⟩
    · simpa [Turned, Run.pure_apply, Stage.breakdown, List.append_assoc] using invoked.2 rfl
    · simpa [Turned, List.append_assoc] using close_course spans (invoked.1 answer rfl)

theorem finalize_course (spans : List Log.Span) {sub : Subroutine σ} {todo : List (Subroutine σ)}
    {outcome : Outcome} (course : Course c id now fetched start t (.turning sub todo outcome) w s)
    (condemned : w.isBeingDeleted = true) :
    Turned c id now fetched start t sub todo outcome (Turn.finalize { c with spans := spans } sub w s) := by
  have invoked := invoke_course spans (course.condemned condemned)
  simp only [Turn.finalize, Run.bind_apply]
  generalize Turn.invoke _ sub .finalize w s = first at invoked
  rcases first with ⟨answer | answer, s', piece⟩
  · simpa [Turned, Run.pure_apply, Stage.breakdown] using invoked.2 rfl
  · have cleaned := invoked.1 answer rfl
    have persisted := persistFinalizers_course spans "releasing finalizers"
      (.release sub todo outcome answer.result) cleaned.keep cleaned.release
    simp only [Run.bind_apply]
    generalize Turn.persistFinalizers _ _ _ _ s' = second at persisted
    rcases second with ⟨error | w', s'', piece'⟩
    · simpa [Turned, Purpose.refused, Run.pure_apply, List.append_assoc] using persisted.2 error rfl
    · simpa [Turned, List.append_assoc] using close_course spans (persisted.1 w' rfl)

theorem turn_course {sub : Subroutine σ} {todo : List (Subroutine σ)} {outcome : Outcome}
    (course : Course c id now fetched start t (.turning sub todo outcome) w s) :
    Turned c id now fetched start t sub todo outcome (Turn.run c sub w s) := by
  have begun := log_course (Turn.span sub.name :: c.spans) ⟨.debug, Turn.target, "start subroutine", []⟩ course
  by_cases condemned : w.isBeingDeleted = true
  · have turned := finalize_course (Turn.span sub.name :: c.spans) begun condemned
    simpa [Turned, Turn.run, Turn.debug, Run.bind_apply, Cycle.log, condemned, List.append_assoc] using turned
  · have turned := process_course (Turn.span sub.name :: c.spans) begun (by simpa using condemned)
    simpa [Turned, Turn.run, Turn.debug, Run.bind_apply, Cycle.log, condemned, List.append_assoc] using turned

def swept : Swept → Stage σ
  | .finished outcome => .sweeping [] outcome
  | .cancelled => .ended (.error (.error .cancelled))
  | .failed subroutine error => .failed subroutine error

theorem sweep_course (todo : List (Subroutine σ)) {outcome : Outcome}
    (course : Course c id now fetched start t (.sweeping todo outcome) w s) :
    let ran := Sweep.run c fetched.phase now todo outcome w s
    Course c id now fetched start (t ++ ran.trace) (swept ran.value.2) ran.value.1 ran.state := by
  induction todo generalizing outcome t w s with
  | nil => simpa [Sweep.run, Run.pure_apply, swept] using course
  | cons sub rest ih =>
      simp only [Sweep.run, Run.bind_apply, Cycle.isCancelled, Run.observe_apply]
      by_cases cancelled : c.world.cancelled s = true
      · simpa [cancelled, Run.pure_apply, swept] using course.stop cancelled
      · have running : c.world.cancelled s = false := by simpa using cancelled
        by_cases skipped : Sweep.isSkipped fetched.phase sub w = true
        · have passed := ih (log_course c.spans ⟨.debug, Cycle.target, "no finalizer registered, skipping finalization",
            [("subroutine", .text sub.name)]⟩ (course.pass running skipped))
          simpa [running, skipped, Run.bind_apply, Cycle.log, List.append_assoc] using passed
        · have turned := turn_course (course.enter running (by simpa using skipped))
          simp only [running, skipped, Bool.false_eq_true, ↓reduceIte, Run.bind_apply]
          generalize Turn.run c sub _ s = ran at turned
          rcases ran with ⟨⟨w', result⟩, s', piece⟩
          cases result with
          | ok asked => simpa [List.append_assoc] using ih (turned.1 asked rfl)
          | error error =>
              have broken := turned.2 error rfl
              by_cases news : error = .cancelled
              · simpa [news, Stage.breakdown, Run.pure_apply, swept] using broken
              · cases error <;> simp_all [Stage.breakdown, Run.pure_apply, swept]

theorem persistStatus_course {verdict : Verdict}
    (course : Course c id now fetched start t (.persisting verdict) w s) :
    let ran := c.persistStatus fetched.currentStatus w s
    (∀ written, ran.value = .ok written →
      Course c id now fetched start (t ++ ran.trace) verdict.next written ran.state) ∧
    (∀ error, ran.value = .error error →
      Course c id now fetched start (t ++ ran.trace) (.ended (.error (.error (verdict.error error)))) w
        ran.state) := by
  by_cases same : w.currentStatus = fetched.currentStatus
  · have next := log_course c.spans ⟨.info, Cycle.target, "skipping status update, since they are equal", []⟩
      (course.unchanged same)
    simpa [Cycle.persistStatus, same, Run.bind_apply, Run.pure_apply, Cycle.log] using next
  · have noted := log_course c.spans ⟨.info, Cycle.target, "updating resource status", []⟩ course
    have asked := Run.asked_guarded c.world.cancelled (c.world.updateStatus w) (.statusUpdated w) s
    simp only [Cycle.persistStatus, same, if_false, Cycle.updateStatus, Cycle.ask, Cycle.log, Run.emit_apply,
      Run.bind_apply, Run.pure_apply]
    generalize Run.guarded c.world.cancelled (c.world.updateStatus w) (.statusUpdated w) s = ran at asked
    rcases ran with ⟨answer, s', piece⟩
    rcases answered : answer.getD (.error .cancelled) with error | stored
    · by_cases gone : Vanished w error
      · have next := log_course c.spans
          ⟨.debug, Cycle.target, "resource removed after its last finalizer was released", []⟩
          (noted.vanish same asked answered gone)
        simpa [answered, isGone_iff.mpr gone, Run.bind_apply, Run.pure_apply, Cycle.log, List.append_assoc] using next
      · have next := storeFailed_course c.spans "cannot update reconciliation conditions, kubernetes client error"
          (noted.refuse same asked answered gone)
        simpa [answered, mt isGone_iff.mp gone, Run.bind_apply, Run.pure_apply, Cycle.log, List.append_assoc] using next
    · obtain rfl := eq_some_of_getD_ok answered
      simpa [Run.pure_apply, Cycle.log, List.append_assoc] using noted.persist same asked

theorem clearRefresh_course {outcome : Outcome}
    (course : Course c id now fetched start t (.unlabelling outcome) w s) :
    let ran := clearRefresh c fetched.phase w s
    ∃ left, (∀ cleared, ran.value = .ok cleared →
      Course c id now fetched start (t ++ ran.trace) (.ended (.ok (.reconciled outcome))) left ran.state) ∧
    (∀ error, ran.value = .error error →
      Course c id now fetched start (t ++ ran.trace) (.ended (.error (.error error))) left ran.state) := by
  by_cases due : unlabels c fetched.phase w = true
  · have noted := log_course c.spans ⟨.debug, Cycle.target, "removing refresh label", []⟩ (course.unlabel due)
    have persisted := persistMetadata_course c.spans noted
    simp only [clearRefresh, due, ↓reduceIte, Reconcile.log, Cycle.log, Run.emit_apply, Run.bind_apply]
    generalize Cycle.persistMetadata _ (Spread.clearRefreshMarker w).1 s = ran at persisted
    rcases ran with ⟨error | written, s', piece⟩
    · exact ⟨_, by simpa [Purpose.refused, Run.pure_apply, Cycle.log, List.append_assoc] using persisted.2 error rfl⟩
    · exact ⟨_, by simpa [Purpose.next, Run.pure_apply, Cycle.log, List.append_assoc] using persisted.1 written rfl⟩
  · have next := course.finish (by simpa using due)
    exact ⟨w, by simpa [clearRefresh, due, Run.pure_apply] using next⟩

theorem schedule_course {outcome : Outcome} (course : Course c id now fetched start t (.sweeping [] outcome) w s) :
    let ran := Reconcile.schedule c fetched.phase now outcome w s
    (∀ scheduled, ran.value = some scheduled →
      Course c id now fetched start (t ++ ran.trace) (.persisting (.outcome outcome))
        (c.amend (Ledger.setReady now (if outcome.isDone then .true else .false)) scheduled) ran.state) ∧
    (ran.value = none →
      Course c id now fetched start (t ++ ran.trace) (.ended (.error .beyondCalendar)) w ran.state) := by
  by_cases due : schedules c fetched.phase outcome = true
  · have done : outcome.isDone = true := by
      simp only [schedules, Bool.and_eq_true] at due
      exact due.1.1
    simp only [done, ↓reduceIte, Reconcile.schedule, due, Run.bind_apply, Run.change_apply]
    rcases drawn : Spread.scheduleNext? w now (c.world.draw s).1 with _ | scheduled
    · simpa [Run.pure_apply] using course.beyond due drawn
    · have next := logAll_course c.spans [
          ⟨.debug, spreadTarget, "setting next reconcile time",
            [("minutes_till_next_execution", .number (Spread.delay (c.world.draw s).1).minutes)]⟩,
          ⟨.debug, spreadTarget, "updating observed generation",
            [("observed_generation", .text (optionalNumber w.currentStatus.observedGeneration)),
              ("generation", .number w.generation.toInt)]⟩] (course.schedule due drawn)
      simpa [Run.bind_apply, Run.pure_apply, Cycle.logAll] using next
  · have next := course.conclude (by simpa using due)
    simpa [Reconcile.schedule, due, Run.pure_apply] using next

theorem conclude_course {outcome : Outcome} (course : Course c id now fetched start t (.sweeping [] outcome) w s) :
    let ran := Reconcile.conclude c fetched.phase now fetched.currentStatus outcome w s
    ∃ left, Course c id now fetched start (t ++ ran.trace) (.ended ran.value) left ran.state := by
  have scheduled := schedule_course course
  simp only [Reconcile.conclude, Run.bind_apply]
  generalize Reconcile.schedule c fetched.phase now outcome w s = first at scheduled
  rcases first with ⟨_ | w₁, s₁, piece₁⟩
  · exact ⟨w, by simpa [Run.pure_apply] using scheduled.2 rfl⟩
  · have persisted := persistStatus_course (scheduled.1 w₁ rfl)
    simp only [Run.bind_apply]
    generalize c.persistStatus fetched.currentStatus _ s₁ = second at persisted
    rcases second with ⟨error | w₂, s₂, piece₂⟩
    · exact ⟨_, by simpa [Run.pure_apply, Verdict.error, List.append_assoc] using persisted.2 error rfl⟩
    · obtain ⟨left, cleared⟩ := clearRefresh_course (persisted.1 w₂ rfl)
      simp only [Run.bind_apply]
      generalize clearRefresh c fetched.phase w₂ s₂ = third at cleared
      rcases third with ⟨error | done, s₃, piece₃⟩
      · exact ⟨left, by simpa [Run.pure_apply, List.append_assoc] using cleared.2 error rfl⟩
      · have ended := log_course c.spans ⟨.info, Cycle.target, "end reconcile", outcome.fields⟩
          (cleared.1 done rfl)
        exact ⟨left, by simpa [Run.bind_apply, Run.pure_apply, Reconcile.log, Cycle.log, List.append_assoc] using ended⟩

theorem abort_course {subroutine : String} {error : Error}
    (course : Course c id now fetched start t (.failed subroutine error) w s) :
    let ran := Reconcile.abort c fetched.phase now fetched.currentStatus subroutine error w s
    ∃ left, Course c id now fetched start (t ++ ran.trace) (.ended ran.value) left ran.state := by
  have persisted := persistStatus_course course.abort
  simp only [Reconcile.abort, Run.bind_apply]
  generalize c.persistStatus fetched.currentStatus _ s = ran at persisted
  rcases ran with ⟨second | written, s', piece⟩
  · have noted := log_course c.spans ⟨.warn, Cycle.target, "status not persisted after subroutine failure",
      [("error", .text second.message)]⟩ (persisted.2 second rfl)
    exact ⟨_, by simpa [Run.bind_apply, Run.pure_apply, Reconcile.log, Cycle.log, Verdict.error,
      List.append_assoc] using noted⟩
  · exact ⟨_, by simpa [Run.pure_apply, Verdict.next] using persisted.1 written rfl⟩

theorem converge_course
    (course : Course c id now fetched start t (.sweeping c.manager.subroutines .done)
      (c.amend (Ledger.setUnknownIfAbsent now) fetched) s) :
    let ran := Reconcile.converge c now fetched s
    ∃ left, Course c id now fetched start (t ++ ran.trace) (.ended ran.value) left ran.state := by
  have swept := sweep_course _ course
  simp only [Reconcile.converge, Run.bind_apply]
  generalize Sweep.run c fetched.phase now _ _ _ s = ran at swept
  rcases ran with ⟨⟨w', outcome | _ | ⟨subroutine, error⟩⟩, s', piece⟩
  · simpa [List.append_assoc] using conclude_course swept
  · exact ⟨w', by simpa [Run.pure_apply, Course.swept] using swept⟩
  · simpa [List.append_assoc] using abort_course swept

theorem run_course (c : Cycle σ) (id : ResourceId) (start : σ) :
    let ran := Reconcile.run c id start
    ∃ now fetched left, Course c id now fetched start ran.trace (.ended ran.value) left ran.state := by
  have opened (now : Timestamp) (fetched : Workspace) :=
    log_course c.spans ⟨.info, Cycle.target, "start reconcile", []⟩
      (Course.start : Course c id now fetched start _ _ _ _)
  have asked := Run.asked_guarded c.world.cancelled (c.world.get id) (.fetched id) start
  simp only [Reconcile.run, Reconcile.log, Cycle.log, Cycle.get, Cycle.ask, Run.emit_apply, Run.bind_apply,
    Run.pure_apply]
  generalize Run.guarded c.world.cancelled (c.world.get id) (.fetched id) start = ran at asked
  rcases ran with ⟨answer, s', piece⟩
  rcases answered : answer.getD (.error .cancelled) with error | _ | fetched
  · have failed := storeFailed_course c.spans "failed to retrieve instance"
      ((opened default default).unread asked answered)
    exact ⟨_, _, _, by simpa [answered, Run.bind_apply, Run.pure_apply, Cycle.log] using failed⟩
  · have given : answer = some (.ok none) := eq_some_of_getD_ok answered
    have ended := log_course c.spans ⟨.info, Cycle.target, "instance not found, it was likely deleted", []⟩
      ((opened default default).absent (given ▸ asked))
    exact ⟨_, _, _, by simpa [answered, Run.bind_apply, Run.pure_apply, Cycle.log] using ended⟩
  · have given : answer = some (.ok (some fetched)) := eq_some_of_getD_ok answered
    subst given
    rcases skipped : skips c (c.world.now s') fetched with _ | remaining
    · obtain ⟨left, ended⟩ := converge_course ((opened _ fetched).fetch asked rfl skipped)
      exact ⟨_, _, left, by simpa [skipped, Run.bind_apply, Run.pure_apply, Cycle.log] using ended⟩
    · have ended := log_course c.spans ⟨.debug, Cycle.target, "completed reconciliation, no processing needed",
        [("minutes_till_next_execution", .number remaining.minutes)]⟩ ((opened _ fetched).skip asked rfl skipped)
      exact ⟨_, _, _, by simpa [skipped, Run.bind_apply, Run.map_apply, Cycle.log] using ended⟩

end Reconciler.Course

namespace Reconciler.Manager

variable {σ : Type}

theorem attempt_course (m : Manager σ) (world : World σ) (id : ResourceId) (s : σ) :
    ∃ now fetched left,
      Course (m.cycle world id (world.correlate s).1) id now fetched (world.correlate s).2
        (m.attempt world id s).trace (.ended (m.attempt world id s).value) left (m.attempt world id s).state := by
  simpa [attempt, Run.bind_apply] using Course.run_course (m.cycle world id (world.correlate s).1) id _

theorem reconcile_attempt (m : Manager σ) (world : World σ) (id : ResourceId) (s : σ) :
    (m.reconcile world id s).state = (m.attempt world id s).state ∧
      ∃ metrics : List Metric, (m.reconcile world id s).trace = (m.attempt world id s).trace ++
        metrics.map fun metric => ⟨.counted metric, (m.attempt world id s).state, (m.attempt world id s).state⟩ := by
  simp only [reconcile, Run.bind_apply]
  rcases (m.attempt world id s).value with (error | _) | finished
  · exact ⟨rfl, [.timed m.controller, .reconciled m.controller .error], rfl⟩
  · exact ⟨rfl, [], rfl⟩
  · exact ⟨rfl, [.timed m.controller, .reconciled m.controller finished.ending], rfl⟩

theorem reconcile_of_attempt {m : Manager σ} {world : World σ} {id : ResourceId} {s : σ} {P : List (Moment σ) → Prop}
    (attempt : P (m.attempt world id s).trace)
    (counted : ∀ t metric state, P t → P (t ++ [⟨.counted metric, state, state⟩])) :
    P (m.reconcile world id s).trace := by
  obtain ⟨_, metrics, trace⟩ := m.reconcile_attempt world id s
  rw [trace]
  clear trace
  generalize (m.attempt world id s).trace = t at attempt
  induction metrics generalizing t with
  | nil => simpa using attempt
  | cons metric rest ih =>
      rw [List.map_cons, List.append_cons]
      exact ih _ (counted _ _ _ attempt)

theorem value_reconcile (m : Manager σ) (world : World σ) (id : ResourceId) (s : σ) :
    (m.reconcile world id s).value = (m.attempt world id s).value.map Finished.outcome := by
  simp only [reconcile, Run.bind_apply]
  rcases (m.attempt world id s).value with (error | _) | finished <;> rfl

end Reconciler.Manager
