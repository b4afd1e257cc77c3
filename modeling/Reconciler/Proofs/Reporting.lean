import Reconciler.Proofs.Cancellation

set_option autoImplicit false

namespace Reconciler

open Reconcile

variable {σ : Type}

def Event.report? : Event → Option Error
  | reported error _ => some error
  | _ => none

def reports (t : List (Moment σ)) : List Error :=
  t.filterMap (·.event.report?)

def failures (events : List Event) : List Error :=
  events.filterMap Event.failure?

def Stage.unreported : Stage σ → List Error
  | cleaned s _ _ (.error failure) | settled s _ _ (.error failure) => [.subroutine s.name failure]
  | reporting error next => error :: next.unreported
  | _ => []

namespace Reporting

-- A report is of the failure of the last call, and tagged with the reconcile. It does not wait for the next call.
structure Prompt (m : Manager σ) (id : ResourceId) (past : List (Moment σ)) (moment : Moment σ) : Prop where
  report : ∀ error tags, moment.event = .reported error tags →
    error.shouldReport = true ∧ (lastCall past).bind Event.failure? = some error ∧
      tags.operator = m.operator ∧ tags.controller = m.controller ∧ tags.resource = id
  call : moment.event.isCall = true → reports past = (failures (calls past)).filter Error.shouldReport

def Untold (events : List Event) (second : Error) : Prop :=
  ∃ front given, events = front ++ [.statusUpdated given (some (.error second))] ∧ failures front ≠ [] ∧
    ¬Vanished given second

-- All that a reconcile has reported at its end.
def Told (events : List Event) (reported : List Error) : Except Stop Outcome → Prop
  | .ok _ | .error .beyondCalendar => reported = []
  | .error (.error error) => ∃ second : Option Error,
      reported = (error :: second.toList).filter Error.shouldReport ∧
        ∀ other, second = some other ↔ Untold events other

def Failed (events : List Event) (error : Error) : Prop :=
  (failures events = [] ∧ error = .cancelled) ∨ failures events = [error] ∨
    ∃ second, failures events = [error, second] ∧ Untold events second

structure Reported (c : Cycle σ) (id : ResourceId) (t : List (Moment σ)) (stage : Stage σ) : Prop where
  prompt : Throughout (Prompt c.manager id) t
  pending : ∀ error ∈ stage.unreported, error.shouldReport = true → (lastCall t).bind Event.failure? = some error
  told : reports t ++ stage.unreported.filter Error.shouldReport = (failures (calls t)).filter Error.shouldReport

def Sole (events : List Event) : Stage σ → Prop
  | .cleaned s _ _ (.error failure) | .settled s _ _ (.error failure) =>
      failures events = [.subroutine s.name failure]
  | .failed _ error | .persisting (.failure error) => failures events = [error] ∧ error ≠ .cancelled
  | .ended (.error (.error error)) => Failed events error
  | .reporting _ next => Sole events next
  | _ => failures events = []

section

variable {c : Cycle σ} {id : ResourceId} {now : Timestamp} {fetched : Workspace} {start s s' : σ}
variable {t piece : List (Moment σ)} {moment : Moment σ} {w : Workspace} {stage next : Stage σ}
variable {events : List Event} {error : Error}

theorem failures_append (front back : List Event) : failures (front ++ back) = failures front ++ failures back := by
  simp [failures]

theorem reports_snoc_of_none (other : moment.event.report? = none) : reports (t ++ [moment]) = reports t := by
  simp [reports, other]

theorem report?_of_isCall {event : Event} (call : event.isCall = true) : event.report? = none := by
  cases event <;> simp_all [Event.isCall, Event.report?]

section

variable {α : Type} {stop : σ → Bool} {call : σ → Call σ α} {event : Option α → Event} {answer : Option α}

theorem failures_asked (asked : Run.Asked stop call event s answer piece s') (call? : ∀ a, (event a).isCall = true)
    (silent : (event none).failure? = none) :
    failures (calls (t ++ piece)) = failures (calls t) ++ (event answer).failure?.toList := by
  rcases asked.ends with ⟨rfl, rfl, _⟩ | ⟨rfl, _⟩
  · simp [silent]
  · rcases failure : (event answer).failure? with _ | error <;> simp [failures, calls, call?, failure]

theorem reports_asked (asked : Run.Asked stop call event s answer piece s') (call? : ∀ a, (event a).isCall = true) :
    reports (t ++ piece) = reports t := by
  rcases asked.ends with ⟨_, rfl, _⟩ | ⟨rfl, _⟩
  · simp
  · refine reports_snoc_of_none ?_
    exact report?_of_isCall (call? answer)

theorem Reported.asked (reported : Reported c id t stage) (none : stage.unreported = [])
    (asked : Run.Asked stop call event s answer piece s') (call? : ∀ a, (event a).isCall = true)
    (silent : (event .none).failure? = .none)
    (owed : next.unreported.filter Error.shouldReport =
      (event answer).failure?.toList.filter Error.shouldReport) : Reported c id (t ++ piece) next := by
  have told := reported.told
  rw [none, List.filter_nil, List.append_nil] at told
  refine ⟨reported.prompt.asked asked ⟨fun error tags report => ?_, fun _ => told⟩, fun error member shown => ?_, ?_⟩
  · have call := call? answer
    dsimp only at report
    simp [report, Event.isCall] at call
  · have failed : error ∈ (event answer).failure?.toList.filter Error.shouldReport := by
      rw [← owed]
      exact List.mem_filter.mpr ⟨member, shown⟩
    have failure : (event answer).failure? = some error := by simpa [shown] using failed
    rcases asked.ends with ⟨rfl, _⟩ | ⟨rfl, _⟩
    · simp [silent] at failure
    · rw [lastCall_snoc (call? answer)]
      exact failure
  · rw [reports_asked asked call?, failures_asked asked call? silent, List.filter_append, told, owed]

end

theorem Reported.alike (reported : Reported c id t stage) (same : next.unreported = stage.unreported) :
    Reported c id t next :=
  ⟨reported.prompt, same ▸ reported.pending, same ▸ reported.told⟩

theorem Reported.quiet (reported : Reported c id t stage) (uncalled : moment.event.isCall = false)
    (unreported : moment.event.report? = none) : Reported c id (t ++ [moment]) stage := by
  refine ⟨reported.prompt.snoc ⟨fun error tags report => ?_, fun call => ?_⟩, fun error member shown => ?_, ?_⟩
  · simp [report, Event.report?] at unreported
  · simp [uncalled] at call
  · rw [lastCall_snoc_of_not uncalled]
    exact reported.pending error member shown
  · rw [reports_snoc_of_none unreported, calls_snoc_of_not uncalled]
    exact reported.told

theorem unreported_breakdown (subroutine : String) (error : Error) :
    (Stage.breakdown subroutine error : Stage σ).unreported = [] := by
  unfold Stage.breakdown
  split <;> rfl

theorem unreported_refused (purpose : Purpose σ) (error : Error) : (purpose.refused error).unreported = [] := by
  cases purpose with
  | register | release => exact unreported_breakdown ..
  | unlabel => rfl

theorem ok_of_release {sub : Subroutine σ} {todo : List (Subroutine σ)} {outcome : Outcome}
    {result : Except OperatorError Outcome}
    (course : Course c id now fetched start t (.writing (.release sub todo outcome result)) w s) :
    ∃ asked, result = .ok asked := by
  obtain ⟨turnouts, found, own, _, _, _, answer, _, rfl, changed⟩ := course.accounts
  have released := (Workspace.changed_releaseIfIdle ..).symm.trans (congrArg Prod.snd changed)
  obtain ⟨asked, result, _⟩ := Finalizer.releaseIfIdle_of_changed released
  exact ⟨asked, result⟩

theorem unreported_next {purpose : Purpose σ} (course : Course c id now fetched start t (.writing purpose) w s) :
    purpose.next.unreported = [] := by
  cases purpose with
  | register | unlabel => rfl
  | release =>
      obtain ⟨asked, rfl⟩ := ok_of_release course
      rfl

theorem unreported_verdict (verdict : Verdict) : (verdict.next : Stage σ).unreported = [] := by
  cases verdict <;> rfl

theorem owed_of_answered {α : Type} {event : Option (Except Error α) → Event} {answer : Option (Except Error α)}
    (answered : answer.getD (.error .cancelled) = .error error) (silent : (event none).failure? = none)
    (failure : (event (some (.error error))).failure? = some error) :
    [error].filter Error.shouldReport = (event answer).failure?.toList.filter Error.shouldReport := by
  rcases answer with _ | answer
  · obtain rfl : .cancelled = error := by simpa using answered
    simp [silent, Error.shouldReport]
  · obtain rfl : answer = .error error := answered
    simp [failure]

theorem reported_of_course (course : Course c id now fetched start t stage w s)
    (tags : c.tags.operator = c.manager.operator ∧ c.tags.controller = c.manager.controller ∧ c.tags.resource = id) :
    Reported c id t stage := by
  induction course with
  | start => exact ⟨.nil, by simp [Stage.unreported], rfl⟩
  | note _ _ ih => exact ih.quiet rfl rfl
  | unread _ asked answered ih =>
      exact ih.asked rfl asked (fun _ => rfl) rfl (owed_of_answered answered rfl rfl)
  | absent _ asked ih => exact ih.asked rfl asked (fun _ => rfl) rfl rfl
  | skip _ asked _ _ ih => exact ih.asked rfl asked (fun _ => rfl) rfl rfl
  | fetch _ asked _ _ ih => exact ih.asked rfl asked (fun _ => rfl) rfl rfl
  | @step _ phase sub _ _ _ _ answer _ _ _ asked ih =>
      refine ih.asked rfl asked (fun _ => rfl) rfl ?_
      rcases result : answer.result with failure | ask <;> cases phase <;>
        simp [Stage.afterStep, Stage.unreported, Event.failure?, result]
  | drop _ asked ih => exact ih.asked rfl asked (fun _ => rfl) rfl rfl
  | written course asked ih =>
      refine ih.asked rfl asked (fun _ => rfl) rfl ?_
      rw [unreported_next course]
      rfl
  | @unwritten _ purpose _ _ _ _ _ error course asked answered ih =>
      refine ih.asked rfl asked (fun _ => rfl) rfl ?_
      rw [Stage.unreported, unreported_refused]
      exact owed_of_answered answered rfl rfl
  | fail _ ih => exact (ih.quiet rfl rfl).alike rfl
  | @report _ error next _ s _ shown ih =>
      refine ⟨ih.prompt.snoc ⟨?_, by simp [Event.isCall]⟩, fun later member asks => ?_, ?_⟩
      · rintro _ _ ⟨⟩
        exact ⟨shown, ih.pending error List.mem_cons_self shown, tags⟩
      · rw [lastCall_snoc_of_not rfl]
        exact ih.pending later (List.mem_cons_of_mem _ member) asks
      · have told := ih.told
        rw [calls_snoc_of_not rfl, ← told]
        simp [reports, Event.report?, Stage.unreported, shown]
  | @conceal _ error next _ _ _ silent ih =>
      refine ⟨ih.prompt, fun later member asks => ih.pending later (List.mem_cons_of_mem _ member) asks, ?_⟩
      rw [← ih.told]
      simp [Stage.unreported, silent]
  | unchanged _ _ ih => exact ih.alike (unreported_verdict _)
  | persist _ _ asked ih =>
      refine ih.asked rfl asked (fun _ => rfl) rfl ?_
      rw [unreported_verdict]
      rfl
  | @vanish _ _ _ _ answer _ _ error _ _ asked answered gone ih =>
      refine ih.asked rfl asked (fun _ => rfl) rfl ?_
      rw [unreported_verdict]
      rcases answer with _ | answer
      · rfl
      · obtain rfl : answer = .error error := answered
        simp [Event.failure?, Event.refusal?, gone]
  | refuse _ _ asked answered lasting ih =>
      exact ih.asked rfl asked (fun _ => rfl) rfl
        (owed_of_answered answered rfl (by simp [Event.failure?, Event.refusal?, lasting]))
  | @keep _ _ _ _ result _ _ _ _ ih => cases result <;> exact ih.alike rfl
  | release course changed ih =>
      obtain ⟨asked, rfl⟩ := ok_of_release (Course.release course changed)
      exact ih.alike rfl
  | stop _ _ ih | pass _ _ _ ih | enter _ _ _ ih | condemned _ _ ih | complete _ ih => exact ih.alike rfl
  | equipped _ _ _ ih | register _ _ _ ih | abort _ ih | conclude _ _ ih => exact ih.alike rfl
  | schedule _ _ _ ih | beyond _ _ _ ih | finish _ _ ih | unlabel _ _ ih => exact ih.alike rfl

theorem sole_breakdown {subroutine : String}
    (failed : failures events = [error] ∨ failures events = [] ∧ error = .cancelled) :
    Sole events (.breakdown subroutine error : Stage σ) := by
  unfold Stage.breakdown
  split
  · rename_i cancelled
    rcases failed with one | ⟨none, _⟩
    · exact .inr (.inl (cancelled ▸ one))
    · exact .inl ⟨none, rfl⟩
  · rename_i other
    exact ⟨failed.resolve_right fun unknown => other unknown.2, other⟩

theorem Failed.of_answered (failed : failures events = [error] ∨ failures events = [] ∧ error = .cancelled) :
    Failed events error :=
  failed.elim (fun one => .inr (.inl one)) .inl

theorem sole_next {purpose : Purpose σ} (course : Course c id now fetched start t (.writing purpose) w s)
    (none : failures events = []) : Sole events purpose.next := by
  cases purpose with
  | register | unlabel => exact none
  | release =>
      obtain ⟨asked, rfl⟩ := ok_of_release course
      exact none

theorem sole_refused {purpose : Purpose σ}
    (failed : failures events = [error] ∨ failures events = [] ∧ error = .cancelled) :
    Sole events (purpose.refused error) := by
  cases purpose with
  | register | release => exact sole_breakdown failed
  | unlabel => exact .of_answered failed

theorem failed_of_answered {α : Type} {before after : List Event} {event : Option (Except Error α) → Event}
    {answer : Option (Except Error α)} (none : failures before = [])
    (more : failures after = failures before ++ (event answer).failure?.toList)
    (answered : answer.getD (.error .cancelled) = .error error) (silent : (event .none).failure? = .none)
    (failure : (event (some (.error error))).failure? = some error) :
    failures after = [error] ∨ failures after = [] ∧ error = .cancelled := by
  rw [none, List.nil_append] at more
  rcases answer with _ | answer
  · obtain rfl : .cancelled = error := by simpa using answered
    exact .inr ⟨by rw [more, silent]; rfl, rfl⟩
  · obtain rfl : answer = .error error := answered
    exact .inl (by rw [more, failure]; rfl)

theorem sole_of_course (course : Course c id now fetched start t stage w s) : Sole (calls t) stage := by
  -- Only the write of the status can fail after a failure, and then the reconcile is at its end.
  induction course with
  | start => rfl
  | note _ _ ih | report _ _ ih => rw [calls_snoc_of_not rfl]; exact ih
  | unread _ asked answered ih =>
      exact .of_answered (failed_of_answered ih (failures_asked asked (fun _ => rfl) rfl) answered rfl rfl)
  | absent _ asked ih | skip _ asked _ _ ih | fetch _ asked _ _ ih =>
      exact (failures_asked asked (fun _ => rfl) rfl).trans (by rw [ih]; rfl)
  | @step t phase sub _ _ _ _ answer _ _ _ asked ih =>
      have more := failures_asked (t := t) asked (fun _ => rfl) rfl
      rw [ih, List.nil_append] at more
      rcases result : answer.result with failure | ask <;> cases phase <;>
        exact more.trans (by simp [Event.failure?, result])
  | drop _ asked ih => exact .inl ⟨(failures_asked asked (fun _ => rfl) rfl).trans (by rw [ih]; rfl), rfl⟩
  | written course asked ih =>
      exact sole_next course ((failures_asked asked (fun _ => rfl) rfl).trans (by rw [ih]; rfl))
  | unwritten _ asked answered ih =>
      exact sole_refused (failed_of_answered ih (failures_asked asked (fun _ => rfl) rfl) answered rfl rfl)
  | fail _ ih => rw [calls_snoc_of_not rfl]; exact ⟨ih, by simp⟩
  | @unchanged _ verdict _ _ _ _ ih => cases verdict with
      | outcome => exact ih
      | failure => exact .inr (.inl ih.1)
  | @persist t verdict _ _ _ _ _ _ _ asked ih =>
      have more := (failures_asked (t := t) asked (fun _ => rfl) rfl).trans (List.append_nil _)
      cases verdict with
      | outcome => exact more.trans ih
      | failure => exact .inr (.inl (more.trans ih.1))
  | @vanish t verdict w _ answer _ _ error _ _ asked answered gone ih =>
      have silent : (Event.statusUpdated w answer).failure? = none := by
        rcases answer with _ | answer
        · rfl
        · obtain rfl : answer = .error error := answered
          simp [Event.failure?, Event.refusal?, gone]
      have more := failures_asked (t := t) asked (fun _ => rfl) rfl
      rw [silent, Option.toList_none, List.append_nil] at more
      cases verdict with
      | outcome => exact more.trans ih
      | failure => exact .inr (.inl (more.trans ih.1))
  | @refuse t verdict w _ answer _ _ error _ _ asked answered lasting ih =>
      have more := failures_asked (t := t) asked (fun _ => rfl) rfl
      have refusal : (Event.statusUpdated w (some (.error error))).failure? = some error := by
        simp [Event.failure?, Event.refusal?, lasting]
      cases verdict with
      | outcome => exact .of_answered (failed_of_answered ih more answered rfl refusal)
      | failure first =>
          rcases answer with _ | answer
          · exact .inr (.inl (more.trans (by rw [ih.1]; rfl)))
          · obtain rfl : answer = .error error := answered
            refine .inr (.inr ⟨error, ?_, calls t, w, calls_answered asked rfl, by simp [ih.1], lasting⟩)
            rw [more, ih.1, refusal]
            rfl
  | @keep _ _ _ _ result _ _ _ _ ih => cases result <;> exact ih
  | release course changed ih =>
      obtain ⟨asked, rfl⟩ := ok_of_release (Course.release course changed)
      exact ih
  | stop _ _ ih => exact .inl ⟨ih, rfl⟩
  | complete _ ih | conceal _ _ ih | abort _ ih | conclude _ _ ih | schedule _ _ _ ih | beyond _ _ _ ih => exact ih
  | pass _ _ _ ih | enter _ _ _ ih | condemned _ _ ih | equipped _ _ _ ih | register _ _ _ ih => exact ih
  | finish _ _ ih | unlabel _ _ ih => exact ih

theorem told_of_failed {told : List Error} (failed : Failed events error)
    (reported : told = (failures events).filter Error.shouldReport) : Told events told (.error (.error error)) := by
  -- The write of the status is told of only after another failure, so that there are two.
  have count {second : Error} (untold : Untold events second) : 2 ≤ (failures events).length := by
    obtain ⟨front, given, rfl, before, lasting⟩ := untold
    have last : failures [.statusUpdated given (some (.error second))] = [second] := by
      simp [failures, Event.failure?, Event.refusal?, lasting]
    rw [failures_append, last, List.length_append]
    exact Nat.succ_le_succ (List.length_pos_iff.mpr before)
  rcases failed with ⟨nothing, rfl⟩ | one | ⟨second, two, untold⟩
  · refine ⟨none, by simp [reported, nothing, Error.shouldReport], fun other => ⟨by simp, fun untold => ?_⟩⟩
    simpa [nothing] using count untold
  · refine ⟨none, by simp [reported, one], fun other => ⟨by simp, fun untold => ?_⟩⟩
    simpa [one] using count untold
  · refine ⟨some second, by simp [reported, two], fun other => ⟨?_, ?_⟩⟩
    · rintro ⟨⟩
      exact untold
    · rintro ⟨_, _, whole, _⟩
      obtain ⟨_, _, rfl, _⟩ := untold
      simp only [List.append_singleton_inj, Event.statusUpdated.injEq, Option.some.injEq, Except.error.injEq] at whole
      exact congrArg some whole.2.2

theorem told_of_sole {value : Except Stop Finished} {told : List Error}
    (sole : Sole events (.ended value : Stage σ)) (reported : told = (failures events).filter Error.shouldReport) :
    Told events told (value.map Finished.outcome) := by
  rcases value with (error | _) | finished
  · exact told_of_failed sole reported
  · have nothing : failures events = [] := sole
    exact reported.trans (by rw [nothing]; rfl)
  · have nothing : failures events = [] := sole
    exact reported.trans (by rw [nothing]; rfl)

end

theorem reports_reconcile (m : Manager σ) (world : World σ) (id : ResourceId) (s : σ) :
    reports (m.reconcile world id s).trace = reports (m.attempt world id s).trace := by
  obtain ⟨_, metrics, trace⟩ := m.reconcile_attempt world id s
  simp [trace, reports, Event.report?]

/-- Every failure that asks for it is reported once and at once, and the result tells which ones there were. -/
theorem reported_once (m : Manager σ) (world : World σ) (id : ResourceId) (s : σ) :
    let ran := m.reconcile world id s
    Throughout (Prompt m id) ran.trace ∧ Told (calls ran.trace) (reports ran.trace) ran.value := by
  obtain ⟨now, fetched, left, course⟩ := m.attempt_course world id s
  have reported := reported_of_course course ⟨rfl, rfl, rfl⟩
  constructor
  · exact Manager.reconcile_of_attempt (P := Throughout (Prompt m id)) reported.prompt fun _ _ _ prompt =>
      prompt.snoc ⟨by simp, by simp [Event.isCall]⟩
  · rw [calls_reconcile, reports_reconcile, m.value_reconcile]
    refine told_of_sole (sole_of_course course) ?_
    simpa [Stage.unreported] using reported.told

end Reporting

end Reconciler
