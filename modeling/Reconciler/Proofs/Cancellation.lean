import Reconciler.Proofs.SweepOrder

set_option autoImplicit false

namespace Reconciler

open Reconcile

variable {σ : Type}

def Event.failure? : Event → Option Error
  | fetched _ (some (.error error)) => some error
  | stepped subroutine _ _ (some answer) =>
      match answer.result with
      | .ok _ => none
      | .error failure => some (.subroutine subroutine failure)
  | event => event.refusal?

def Turnout.failure? (o : Turnout σ) : Option Error :=
  match o.result with
  | some (.error error) => some error
  | _ => none

namespace Cancellation

-- Cancelled for good, whatever happens between the calls.
structure Latched (world : World σ) : Prop where
  draw : ∀ s, world.cancelled s = true → world.cancelled (world.draw s).2 = true
  correlate : ∀ s, world.cancelled s = true → world.cancelled (world.correlate s).2 = true
  capture : ∀ error tags s, world.cancelled s = true → world.cancelled (world.capture error tags s).2 = true

def Timely (world : World σ) (past : List (Moment σ)) (moment : Moment σ) : Prop :=
  moment.event.isCall = true →
    world.cancelled moment.before = false ∧ ∀ earlier ∈ past, world.cancelled earlier.after = false

structure Watched (c : Cycle σ) (start : σ) (t : List (Moment σ)) (s : σ) : Prop where
  timely : Throughout (Timely c.world) t
  lasting : ∀ moment ∈ t, c.world.cancelled moment.after = true → c.world.cancelled s = true
  unstarted : c.world.cancelled start = true → c.world.cancelled s = true ∧ calls t = []
  unreported : ∀ moment ∈ t, ∀ error tags, moment.event = .reported error tags → error ≠ .cancelled

inductive Severed (c : Cycle σ) (phase : Phase) (now : Timestamp) (sub : Subroutine σ) (found : Workspace) :
    List Event → Prop where
  | waiting : Severed c phase now sub found []
  | registering {more} :
      found.isBeingDeleted = false → ((entered c phase now sub found).register sub.finalizers).2 = true →
      more = [] ∨ more = [.updated ((entered c phase now sub found).register sub.finalizers).1 none] →
      Severed c phase now sub found more
  | processing {writes given more} :
      found.isBeingDeleted = false →
      Persisted ((entered c phase now sub found).register sub.finalizers) writes given →
      more = [] ∨ more = [.stepped sub.name .process given none] →
      Severed c phase now sub found (writes ++ more)
  | finalizing {more} :
      found.isBeingDeleted = true →
      more = [] ∨ more = [.stepped sub.name .finalize (entered c phase now sub found) none] →
      Severed c phase now sub found more
  | releasing {s answer s' more} :
      found.isBeingDeleted = true →
      (sub.finalize (entered c phase now sub found) s).Ends (some answer) s' →
      (answer.workspace.releaseIfIdle sub.finalizers answer.result).2 = true →
      more = [] ∨ more = [.updated (answer.workspace.releaseIfIdle sub.finalizers answer.result).1 none] →
      Severed c phase now sub found
        (.stepped sub.name .finalize (entered c phase now sub found) (some answer) :: more)

def CutShort (c : Cycle σ) (id : ResourceId) (now : Timestamp) (fetched : Workspace) (events : List Event) : Prop :=
  ∃ turnouts found sub todo outcome own, Progress c now fetched turnouts found (sub :: todo) outcome ∧
    Severed c fetched.phase now sub found own ∧ events = begun id fetched turnouts ++ own

-- How a reconcile without a failure has ended, by the calls that it has made: as cancelled when
-- there was more to do, with its result when there was not.
inductive Caught (c : Cycle σ) (id : ResourceId) (now : Timestamp) (fetched : Workspace) :
    List Event → Except Stop Finished → Prop where
  | unread {events} :
      events = [] ∨ events = [.fetched id none] → Caught c id now fetched events (.error (.error .cancelled))
  | absent : Caught c id now fetched [.fetched id (some (.ok none))] (.ok .notFound)
  | skipped {remaining} :
      skips c now fetched = some remaining →
      Caught c id now fetched [.fetched id (some (.ok (some fetched)))] (.ok (.skipped (.requeueAfter remaining)))
  | severed {turnouts found sub todo outcome own} :
      Progress c now fetched turnouts found (sub :: todo) outcome → Severed c fetched.phase now sub found own →
      Caught c id now fetched (begun id fetched turnouts ++ own) (.error (.error .cancelled))
  | unstored {turnouts outcome last more} :
      Closes c now fetched turnouts (.outcome outcome) last → last.currentStatus ≠ fetched.currentStatus →
      more = [] ∨ more = [.statusUpdated last none] →
      Caught c id now fetched (begun id fetched turnouts ++ more) (.error (.error .cancelled))
  | labelled {turnouts outcome last writes kept more} :
      Closes c now fetched turnouts (.outcome outcome) last → StatusKept fetched last writes kept →
      unlabels c fetched.phase kept = true → more = [] ∨ more = [.updated (Spread.clearRefreshMarker kept).1 none] →
      Caught c id now fetched (begun id fetched turnouts ++ writes ++ more) (.error (.error .cancelled))
  | whole {turnouts outcome last writes kept} :
      Closes c now fetched turnouts (.outcome outcome) last → StatusKept fetched last writes kept →
      unlabels c fetched.phase kept = false →
      Caught c id now fetched (begun id fetched turnouts ++ writes) (.ok (.reconciled outcome))
  | unlabelled {turnouts outcome last writes kept stored} :
      Closes c now fetched turnouts (.outcome outcome) last → StatusKept fetched last writes kept →
      unlabels c fetched.phase kept = true →
      Caught c id now fetched
        (begun id fetched turnouts ++ writes ++ [.updated (Spread.clearRefreshMarker kept).1 (some (.ok stored))])
        (.ok (.reconciled outcome))
  | beyond {turnouts w outcome minutes} :
      Progress c now fetched turnouts w [] outcome → schedules c fetched.phase outcome = true →
      Spread.scheduleNext? w now minutes = none →
      Caught c id now fetched (begun id fetched turnouts) (.error .beyondCalendar)

def Resolved (c : Cycle σ) (id : ResourceId) (now : Timestamp) (fetched : Workspace) (events : List Event)
    (value : Except Stop Finished) : Prop :=
  match events.findSome? Event.failure? with
  | some error => value = .error (.error error)
  | none => Caught c id now fetched events value

-- When the turn of the last subroutine came, nothing had been cancelled.
def Reached (c : Cycle σ) (id : ResourceId) (now : Timestamp) (fetched : Workspace) (t : List (Moment σ)) : Prop :=
  ∀ front last, c.manager.subroutines = front ++ [last] → ∃ before turnouts found outcome,
    before <+: t ∧ (∀ moment ∈ before, c.world.cancelled moment.after = false) ∧
    calls before = begun id fetched turnouts ∧ Progress c now fetched turnouts found [last] outcome

def Bound (c : Cycle σ) (id : ResourceId) (now : Timestamp) (fetched : Workspace) (events : List Event) :
    Stage σ → Prop
  | .reporting _ next => Bound c id now fetched events next
  | .ended value => Resolved c id now fetched events value
  | _ => True

section

variable {c : Cycle σ} {id : ResourceId} {now : Timestamp} {fetched : Workspace} {start s s' : σ}
variable {t piece : List (Moment σ)} {moment : Moment σ} {w : Workspace} {stage : Stage σ}

namespace Watched

theorem first : Watched c start [] start :=
  ⟨.nil, by simp, fun cancelled => ⟨cancelled, rfl⟩, by simp⟩

theorem moved (watched : Watched c start t s) (latch : c.world.cancelled s = true → c.world.cancelled s' = true) :
    Watched c start t s' :=
  ⟨watched.timely, fun moment member cancelled => latch (watched.lasting moment member cancelled),
    fun cancelled => (watched.unstarted cancelled).imp_left latch, watched.unreported⟩

theorem quiet (watched : Watched c start t s) (other : moment.event.isCall = false)
    (latch : c.world.cancelled s = true → c.world.cancelled s' = true)
    (shows : c.world.cancelled moment.after = true → c.world.cancelled s' = true)
    (news : ∀ error tags, moment.event = .reported error tags → error ≠ .cancelled) :
    Watched c start (t ++ [moment]) s' := by
  refine ⟨watched.timely.snoc fun call => by simp [other] at call, fun m member cancelled => ?_, fun cancelled => ?_,
    fun m member => ?_⟩
  · rcases List.mem_append.mp member with earlier | last
    · exact latch (watched.lasting m earlier cancelled)
    · obtain rfl := List.mem_singleton.mp last
      exact shows cancelled
  · rw [calls_snoc_of_not other]
    exact (watched.unstarted cancelled).imp_left latch
  · rcases List.mem_append.mp member with earlier | last
    · exact watched.unreported m earlier
    · obtain rfl := List.mem_singleton.mp last
      exact news

theorem asked {α : Type} {call : σ → Call σ α} {event : Option α → Event} {answer : Option α}
    (watched : Watched c start t s) (asked : Run.Asked c.world.cancelled call event s answer piece s')
    (call? : ∀ answer, (event answer).isCall = true) : Watched c start (t ++ piece) s' := by
  cases asked with
  | unasked => simpa using watched
  | asked live given =>
      have before : ∀ moment ∈ t, c.world.cancelled moment.after = false := by
        intro moment member
        by_contra cancelled
        simp [watched.lasting moment member (by simpa using cancelled)] at live
      refine ⟨watched.timely.snoc fun _ => ⟨live, before⟩, fun m member cancelled => ?_, fun cancelled => ?_,
        fun m member error tags report => ?_⟩
      · rcases List.mem_append.mp member with earlier | last
        · simp [before m earlier] at cancelled
        · obtain rfl := List.mem_singleton.mp last
          exact cancelled
      · simp [(watched.unstarted cancelled).1] at live
      · rcases List.mem_append.mp member with earlier | last
        · exact watched.unreported m earlier error tags report
        · obtain rfl := List.mem_singleton.mp last
          have call := call? answer
          dsimp only at report
          simp [report, Event.isCall] at call

end Watched

theorem watched_of_course (latched : Latched c.world) (course : Course c id now fetched start t stage w s) :
    Watched c start t s := by
  induction course with
  | start => exact .first
  | note _ _ ih => exact ih.quiet rfl (fun stopped => stopped) (fun stopped => stopped) (by simp)
  | fail _ ih => exact ih.quiet rfl (fun stopped => stopped) (fun stopped => stopped) (by simp)
  | @report _ error _ _ s _ shown ih =>
      refine ih.quiet rfl (latched.capture error c.tags s) (fun stopped => stopped) ?_
      rintro _ _ ⟨⟩ rfl
      simp [Error.shouldReport] at shown
  | unread _ asked _ ih | skip _ asked _ _ ih | fetch _ asked _ _ ih => exact ih.asked asked fun _ => rfl
  | absent _ asked ih | step _ asked ih | drop _ asked ih => exact ih.asked asked fun _ => rfl
  | written _ asked ih | unwritten _ asked _ ih => exact ih.asked asked fun _ => rfl
  | persist _ _ asked ih | vanish _ _ asked _ _ ih | refuse _ _ asked _ _ ih => exact ih.asked asked fun _ => rfl
  | schedule _ _ _ ih | beyond _ _ _ ih => exact ih.moved (latched.draw _)
  | stop _ _ ih | condemned _ _ ih | keep _ _ ih | release _ _ ih | conceal _ _ ih => exact ih
  | pass _ _ _ ih | enter _ _ _ ih | equipped _ _ _ ih | register _ _ _ ih => exact ih
  | complete _ ih | abort _ ih | conclude _ _ ih | unchanged _ _ ih | finish _ _ ih | unlabel _ _ ih => exact ih

theorem failure_of_persisted {changed : Workspace × Bool} {writes : List Event} {given : Workspace}
    (persisted : Persisted changed writes given) : writes.findSome? Event.failure? = none := by
  cases persisted <;> rfl

theorem failure_of_turns {phase : Phase} {o : Turnout σ}
    (turns : Turns c phase now o.sub o.found o.calls o.result o.left) :
    o.calls.findSome? Event.failure? = o.failure? := by
  obtain ⟨sub, found, own, result, left⟩ := o
  dsimp only at turns ⊢
  cases turns with
  | passed => rfl
  | taken _ taken =>
      cases taken with
      | @processed _ _ _ answer _ _ persisted _ =>
          rw [List.findSome?_append, failure_of_persisted persisted]
          rcases result : answer.result with failure | outcome <;>
            simp [Event.failure?, Turnout.failure?, result, Except.mapError]
      | @finalized _ answer _ _ _ _ _ persisted =>
          rw [List.findSome?_cons, failure_of_persisted persisted]
          rcases result : answer.result with failure | outcome <;>
            simp [Event.failure?, Turnout.failure?, result, Except.mapError]
  | unregistered => rfl
  | unreleased _ _ _ changed =>
      rw [Workspace.changed_releaseIfIdle] at changed
      obtain ⟨outcome, result, _⟩ := Finalizer.releaseIfIdle_of_changed changed
      simp [Event.failure?, Event.refusal?, Turnout.failure?, result]

theorem failure_of_progress {turnouts : List (Turnout σ)} {todo : List (Subroutine σ)} {outcome : Outcome}
    (progress : Progress c now fetched turnouts w todo outcome) :
    (begun id fetched turnouts).findSome? Event.failure? = none := by
  refine List.findSome?_eq_none_iff.mpr fun event member => ?_
  rcases List.mem_cons.mp member with rfl | turn
  · rfl
  · obtain ⟨o, taken, called⟩ := List.mem_flatMap.mp turn
    have fine : o.failure? = none := by
      have clean := progress.clean o taken
      unfold Turnout.failed at clean
      unfold Turnout.failure?
      split at clean <;> simp_all
    rw [← failure_of_turns (progress.chain.turns taken)] at fine
    exact List.findSome?_eq_none_iff.mp fine event called

theorem failure_of_broken {turnouts : List (Turnout σ)} {subroutine : String} {error : Error}
    (broken : Broken c now fetched turnouts subroutine error w) :
    (begun id fetched turnouts).findSome? Event.failure? = some error := by
  obtain ⟨past, o, todo, outcome, rfl, progress, turns, _, result, _⟩ := broken
  rw [begun_snoc, List.findSome?_append, failure_of_progress progress, failure_of_turns turns]
  simp [Turnout.failure?, result]

theorem failure_of_closes {turnouts : List (Turnout σ)} {verdict : Verdict}
    (closes : Closes c now fetched turnouts verdict w) :
    (begun id fetched turnouts).findSome? Event.failure? = match verdict with
      | .outcome _ => none
      | .failure error => some error := by
  cases closes with
  | broken broken => exact failure_of_broken broken
  | whole progress _ | scheduled progress _ _ => exact failure_of_progress progress

theorem failure_of_kept {last : Workspace} {writes : List Event} (kept : StatusKept fetched last writes w) :
    writes.findSome? Event.failure? = none := by
  cases kept <;> simp_all [Event.failure?, Event.refusal?]

theorem failure_of_severed {phase : Phase} {sub : Subroutine σ} {own : List Event}
    (severed : Severed c phase now sub w own) : own.findSome? Event.failure? = none := by
  cases severed with
  | waiting => rfl
  | registering _ _ start | finalizing _ start => rcases start with rfl | rfl <;> rfl
  | processing _ persisted start =>
      rw [List.findSome?_append, failure_of_persisted persisted]
      rcases start with rfl | rfl <;> rfl
  | releasing _ _ changed start =>
      rw [Workspace.changed_releaseIfIdle] at changed
      obtain ⟨outcome, result, _⟩ := Finalizer.releaseIfIdle_of_changed changed
      rcases start with rfl | rfl <;> simp [Event.failure?, Event.refusal?, result]

section

variable {events more : List Event} {sub : Subroutine σ} {todo : List (Subroutine σ)} {outcome : Outcome}

theorem cutShort_sweeping (there : Accounts c id now fetched events w s (.sweeping (sub :: todo) outcome)) :
    CutShort c id now fetched events := by
  obtain ⟨turnouts, progress, done⟩ := there
  exact ⟨turnouts, w, sub, todo, outcome, [], progress, .waiting, by rw [done, List.append_nil]⟩

theorem cutShort_stepping {phase : Phase}
    (there : Accounts c id now fetched events w s (.stepping phase sub todo outcome))
    (start : more = [] ∨ more = [.stepped sub.name phase w none]) : CutShort c id now fetched (events ++ more) := by
  cases phase with
  | process =>
      obtain ⟨turnouts, found, own, progress, _, rfl, live, persisted⟩ := there
      exact ⟨turnouts, found, sub, todo, outcome, _, progress, .processing live persisted start, by simp⟩
  | finalize =>
      obtain ⟨turnouts, found, own, progress, _, rfl, deleted, rfl, rfl⟩ := there
      exact ⟨turnouts, found, sub, todo, outcome, _, progress, .finalizing deleted start, by simp⟩

theorem cutShort_writing {purpose : Purpose σ} (there : Accounts c id now fetched events w s (.writing purpose))
    (turn : purpose.agenda ≠ []) (start : more = [] ∨ more = [.updated w none]) :
    CutShort c id now fetched (events ++ more) := by
  cases purpose with
  | register sub todo outcome =>
      obtain ⟨turnouts, found, own, progress, _, rfl, rfl, live, changed⟩ := there
      obtain ⟨rfl, moved⟩ := Prod.ext_iff.mp changed
      exact ⟨turnouts, found, sub, todo, outcome, _, progress, .registering live moved start, by simp⟩
  | release sub todo outcome result =>
      obtain ⟨turnouts, found, own, progress, _, rfl, answer, ⟨deleted, rfl, _, _, ends⟩, _, changed⟩ := there
      obtain ⟨rfl, moved⟩ := Prod.ext_iff.mp changed
      exact ⟨turnouts, found, sub, todo, outcome, _, progress, .releasing deleted ends moved start, by simp⟩
  | unlabel => exact absurd rfl turn

end

namespace Resolved

variable {events : List Event} {error : Error} {value : Except Stop Finished}

theorem failed (failure : events.findSome? Event.failure? = some error) :
    Resolved c id now fetched events (.error (.error error)) := by
  rw [Resolved, failure]

theorem caught (calm : events.findSome? Event.failure? = none) (caught : Caught c id now fetched events value) :
    Resolved c id now fetched events value := by
  rwa [Resolved, calm]

theorem cutShort (cut : CutShort c id now fetched events) :
    Resolved c id now fetched events (.error (.error .cancelled)) := by
  obtain ⟨turnouts, found, sub, todo, outcome, own, progress, severed, rfl⟩ := cut
  refine caught ?_ (.severed progress severed)
  rw [List.findSome?_append, failure_of_progress progress, failure_of_severed severed]
  rfl

end Resolved

theorem resolved_of_broken {turnouts : List (Turnout σ)} {error : Error}
    (closes : Closes c now fetched turnouts (.failure error) w) (more : List Event) :
    Resolved c id now fetched (begun id fetched turnouts ++ more) (.error (.error error)) := by
  refine .failed ?_
  rw [List.findSome?_append, failure_of_closes closes]
  rfl

theorem bound_next {turnouts : List (Turnout σ)} {verdict : Verdict} {last : Workspace}
    (closes : Closes c now fetched turnouts verdict last) (more : List Event) :
    Bound c id now fetched (begun id fetched turnouts ++ more) (verdict.next : Stage σ) := by
  cases verdict with
  | outcome => trivial
  | failure => exact resolved_of_broken closes more

theorem bound_breakdown {events : List Event} {subroutine : String} {error : Error}
    (failure : events.findSome? Event.failure? = some error) :
    Bound c id now fetched events (.breakdown subroutine error : Stage σ) := by
  unfold Stage.breakdown
  split
  · rename_i cancelled
    subst cancelled
    exact .failed failure
  · trivial

section

variable {purpose : Purpose σ} {events : List Event}

theorem failure_of_writing (there : Accounts c id now fetched events w s (.writing purpose)) :
    events.findSome? Event.failure? = none := by
  cases purpose with
  | register =>
      obtain ⟨turnouts, found, own, progress, _, rfl, rfl, _⟩ := there
      rw [List.append_nil]
      exact failure_of_progress progress
  | release =>
      obtain ⟨turnouts, found, own, progress, _, rfl, answer, ⟨_, rfl, _⟩, _, changed⟩ := there
      have released := (Workspace.changed_releaseIfIdle ..).symm.trans (congrArg Prod.snd changed)
      obtain ⟨outcome, result, _⟩ := Finalizer.releaseIfIdle_of_changed released
      rw [List.findSome?_append, failure_of_progress progress]
      simp [Event.failure?, result]
  | unlabel =>
      obtain ⟨turnouts, last, writes, kept, closes, status, _, _, rfl⟩ := there
      rw [List.findSome?_append, failure_of_closes closes, failure_of_kept status]
      rfl

theorem bound_refused (there : Accounts c id now fetched events w s (.writing purpose)) (error : Error) :
    Bound c id now fetched (events ++ [.updated w (some (.error error))]) (purpose.refused error) := by
  have failure : (events ++ [Event.updated w (some (.error error))]).findSome? Event.failure? = some error := by
    rw [List.findSome?_append, failure_of_writing there]
    rfl
  cases purpose with
  | register | release => exact bound_breakdown failure
  | unlabel => exact .failed failure

theorem bound_cut {more : List Event} (there : Accounts c id now fetched events w s (.writing purpose))
    (start : more = [] ∨ more = [.updated w none]) :
    Bound c id now fetched (events ++ more) (purpose.refused .cancelled) := by
  cases purpose with
  | register | release =>
      simpa [Purpose.refused, Stage.breakdown, Bound] using
        Resolved.cutShort (cutShort_writing there (List.cons_ne_nil _ _) start)
  | unlabel =>
      have calm := failure_of_writing there
      obtain ⟨turnouts, last, writes, kept, closes, status, marked, rfl, rfl⟩ := there
      refine Resolved.caught ?_ (.labelled closes status marked start)
      rw [List.findSome?_append, calm]
      rcases start with rfl | rfl <;> rfl

end

theorem cancelled_of_resolved {value : Except Stop Finished} (resolved : Resolved c id now fetched [] value) :
    value = .error (.error .cancelled) := by
  have caught : Caught c id now fetched [] value := resolved
  generalize none : ([] : List Event) = events at caught
  cases caught with
  | unread => rfl
  | absent | skipped => simp at none
  | severed | unstored | labelled | whole | unlabelled | beyond => simp [begun] at none

theorem bound_of_course (course : Course c id now fetched start t stage w s) :
    Bound c id now fetched (calls t) stage := by
  -- What led to a stage is in its account; a stage that reports an error is bound to what comes after.
  induction course with
  | note _ _ ih => rw [calls_snoc_of_not rfl]; exact ih
  | report _ _ ih => rw [calls_snoc_of_not rfl]; exact ih
  | conceal _ _ ih => exact ih
  | @unread t _ _ answer _ _ error before asked answered =>
      have nothing : calls t = [] := before.accounts
      rcases answer with _ | answer
      · obtain ⟨_, more, start, made⟩ := calls_cut asked rfl
        obtain rfl : .cancelled = error := by simpa using answered
        rw [made, nothing]
        refine Resolved.caught ?_ (.unread start)
        rcases start with rfl | rfl <;> rfl
      · obtain rfl : answer = .error error := answered
        rw [calls_answered asked rfl, nothing]
        simp only [Bound]
        exact .failed rfl
  | @absent t _ _ _ _ before asked =>
      have nothing : calls t = [] := before.accounts
      rw [calls_answered asked rfl, nothing]
      exact Resolved.caught rfl .absent
  | @skip t _ _ _ _ _ before asked _ due =>
      have nothing : calls t = [] := before.accounts
      rw [calls_answered asked rfl, nothing]
      exact Resolved.caught rfl (.skipped due)
  | stop before _ => exact Resolved.cutShort (cutShort_sweeping before.accounts)
  | drop before asked =>
      obtain ⟨_, more, start, made⟩ := calls_cut asked rfl
      rw [made]
      exact Resolved.cutShort (cutShort_stepping before.accounts start)
  | @written _ purpose _ _ _ _ _ before asked =>
      have there := before.accounts
      cases purpose with
      | register | release => trivial
      | unlabel =>
          have calm := failure_of_writing there
          obtain ⟨turnouts, last, writes, kept, closes, status, marked, rfl, done⟩ := there
          rw [calls_answered asked rfl]
          refine Resolved.caught ?_ (done ▸ .unlabelled closes status marked)
          rw [List.findSome?_append, calm]
          rfl
  | @unwritten _ _ _ _ answer _ _ error before asked answered =>
      rcases answer with _ | answer
      · obtain ⟨_, more, start, made⟩ := calls_cut asked rfl
        obtain rfl : .cancelled = error := by simpa using answered
        rw [made]
        exact bound_cut before.accounts start
      · obtain rfl : answer = .error error := answered
        rw [calls_answered asked rfl]
        exact bound_refused before.accounts error
  | beyond before due drawn =>
      obtain ⟨turnouts, progress, done⟩ := before.accounts
      rw [done]
      exact Resolved.caught (failure_of_progress progress) (.beyond progress due drawn)
  | unchanged before _ =>
      obtain ⟨turnouts, closes, done⟩ := before.accounts
      rw [done, ← List.append_nil (begun ..)]
      exact bound_next closes []
  | persist before _ asked =>
      obtain ⟨turnouts, closes, done⟩ := before.accounts
      rw [calls_answered asked rfl, done]
      exact bound_next closes _
  | @vanish _ _ _ _ answer _ _ error before _ asked answered gone =>
      obtain ⟨turnouts, closes, done⟩ := before.accounts
      rcases answer with _ | answer
      · obtain rfl : .cancelled = error := by simpa using answered
        exact absurd gone (not_vanished_cancelled _)
      · rw [calls_answered asked rfl, done]
        exact bound_next closes _
  | @refuse _ verdict w _ answer _ _ error before differs asked answered lasting =>
      obtain ⟨turnouts, closes, done⟩ := before.accounts
      cases verdict with
      | failure =>
          rcases answer with _ | answer
          · obtain ⟨_, more, _, made⟩ := calls_cut asked rfl
            rw [made, done]
            exact resolved_of_broken closes more
          · rw [calls_answered asked rfl, done]
            exact resolved_of_broken closes _
      | outcome =>
          rcases answer with _ | answer
          · obtain ⟨_, more, start, made⟩ := calls_cut asked rfl
            obtain rfl : .cancelled = error := by simpa using answered
            rw [made, done]
            refine Resolved.caught ?_ (.unstored closes differs start)
            rw [List.findSome?_append, failure_of_closes closes]
            rcases start with rfl | rfl <;> rfl
          · obtain rfl : answer = .error error := answered
            rw [calls_answered asked rfl, done]
            refine Resolved.failed ?_
            rw [List.findSome?_append, failure_of_closes closes]
            simp [Event.failure?, Event.refusal?, lasting, Verdict.error]
  | finish before unmarked =>
      obtain ⟨turnouts, last, writes, closes, status, done⟩ := before.accounts
      rw [done]
      refine Resolved.caught ?_ (.whole closes status unmarked)
      rw [List.findSome?_append, failure_of_closes closes, failure_of_kept status]
      rfl
  | @step _ phase => cases phase <;> trivial
  | _ => trivial

def lastTurn : Stage σ → Bool
  | .sweeping todo _ | .turning _ todo _ | .stepping _ _ todo _ => todo.isEmpty
  | .cleaned _ todo _ _ | .settled _ todo _ _ => todo.isEmpty
  | .writing (.register _ todo _) | .writing (.release _ todo _ _) => todo.isEmpty
  | .persisting (.outcome _) | .unlabelling _ | .writing (.unlabel _) => true
  | .ended (.ok (.reconciled _)) | .ended (.error .beyondCalendar) => true
  | .reporting _ next => lastTurn next
  | _ => false

theorem Reached.mono (reached : Reached c id now fetched t) (more : List (Moment σ)) :
    Reached c id now fetched (t ++ more) := by
  intro front last order
  obtain ⟨before, turnouts, found, outcome, early, live, made, progress⟩ := reached front last order
  exact ⟨before, turnouts, found, outcome, early.trans (List.prefix_append ..), live, made, progress⟩

theorem lastTurn_breakdown (subroutine : String) (error : Error) :
    lastTurn (.breakdown subroutine error : Stage σ) = false := by
  unfold Stage.breakdown
  split <;> rfl

theorem lastTurn_refused (purpose : Purpose σ) (error : Error) : lastTurn (purpose.refused error) = false := by
  cases purpose with
  | register | release => exact lastTurn_breakdown ..
  | unlabel => rfl

theorem lastTurn_next (purpose : Purpose σ) : lastTurn purpose.next = lastTurn (.writing purpose) := by
  cases purpose <;> rfl

theorem lastTurn_verdict (verdict : Verdict) :
    lastTurn (verdict.next : Stage σ) = lastTurn (.persisting verdict : Stage σ) := by
  cases verdict <;> rfl

theorem lastTurn_afterStep (phase : Phase) (sub : Subroutine σ) (todo : List (Subroutine σ)) (outcome : Outcome)
    (result : Except OperatorError Outcome) :
    lastTurn (.afterStep phase sub todo outcome result) = lastTurn (.stepping phase sub todo outcome) := by
  cases phase <;> rfl

theorem reached_of_course (latched : Latched c.world) (course : Course c id now fetched start t stage w s) :
    lastTurn stage = true → Reached c id now fetched t := by
  have arrive {t : List (Moment σ)} {sub : Subroutine σ} {outcome : Outcome} {w : Workspace} {s : σ}
      (before : Course c id now fetched start t (.sweeping [sub] outcome) w s) (live : c.world.cancelled s = false) :
      Reached c id now fetched t := by
    intro front last order
    obtain ⟨turnouts, progress, made⟩ := before.accounts
    obtain ⟨_, same⟩ := List.append_inj' (progress.order.symm.trans order) rfl
    cases same
    refine ⟨t, turnouts, w, outcome, List.prefix_refl t, fun moment member => ?_, made, progress⟩
    by_contra cancelled
    simp [(watched_of_course latched before).lasting moment member (by simpa using cancelled)] at live
  induction course with
  | fetch _ _ _ _ _ =>
      intro none front last order
      simp [lastTurn, order] at none
  | @pass _ _ todo _ _ _ before live _ _ | @enter _ _ todo _ _ _ before live _ _ =>
      intro none
      obtain rfl : todo = [] := by simpa [lastTurn] using none
      exact arrive before live
  | note _ _ ih | report _ _ ih => exact fun last => (ih last).mono _
  | step _ _ ih =>
      rw [lastTurn_afterStep]
      exact fun last => (ih last).mono _
  | written _ _ ih =>
      rw [lastTurn_next]
      exact fun last => (ih last).mono _
  | persist _ _ _ ih | vanish _ _ _ _ _ ih =>
      rw [lastTurn_verdict]
      exact fun last => (ih last).mono _
  | unchanged _ _ ih =>
      rw [lastTurn_verdict]
      exact ih
  | unwritten _ _ _ _ =>
      intro broken
      simp [lastTurn, lastTurn_refused] at broken
  | condemned _ _ ih | equipped _ _ _ ih | register _ _ _ ih | keep _ _ ih | release _ _ ih => exact ih
  | complete _ ih | conceal _ _ ih => exact ih
  | conclude _ _ ih | schedule _ _ _ ih | beyond _ _ _ ih | finish _ _ ih | unlabel _ _ ih => exact fun _ => ih rfl
  | _ => exact fun never => by simp [lastTurn] at never

end

section

variable {m : Manager σ} {world : World σ} {id : ResourceId} {s : σ}

/-- After its cancellation a reconcile makes no call, and if it has begun cancelled, none at all. Its result is the
first failure among the answers, or as `Caught` has it; only when the cancellation has come after the turn of the last
subroutine can it be that of a whole reconcile. That it was cancelled is not reported. -/
theorem nothing_after_cancellation (latched : Latched world) :
    Throughout (Timely world) (m.attempt world id s).trace ∧
    (world.cancelled s = true →
      calls (m.attempt world id s).trace = [] ∧ (m.attempt world id s).value = .error (.error .cancelled)) ∧
    (∃ now fetched,
      (∀ read w, Finds id (m.attempt world id s).trace read w → fetched = w ∧ now = world.now read.after) ∧
      Resolved (m.cycle world id (world.correlate s).1) id now fetched (calls (m.attempt world id s).trace)
        (m.attempt world id s).value ∧
      ((∃ outcome, (m.attempt world id s).value = .ok (.reconciled outcome)) ∨
          (m.attempt world id s).value = .error .beyondCalendar →
        Reached (m.cycle world id (world.correlate s).1) id now fetched (m.attempt world id s).trace)) ∧
    ∀ moment ∈ (m.attempt world id s).trace, ∀ error tags, moment.event = .reported error tags →
      error ≠ .cancelled := by
  obtain ⟨now, fetched, left, course⟩ := m.attempt_course world id s
  have watched := watched_of_course latched course
  have resolved : Resolved _ id now fetched (calls _) (m.attempt world id s).value := bound_of_course course
  have reached := reached_of_course latched course
  refine ⟨watched.timely, fun cancelled => ?_, ⟨now, fetched, fun read w found => ?_, resolved, fun whole => ?_⟩,
    watched.unreported⟩
  · have none := (watched.unstarted (latched.correlate s cancelled)).2
    rw [none] at resolved
    refine ⟨none, ?_⟩
    exact cancelled_of_resolved resolved
  · exact course.found_eq found
  · refine reached ?_
    rcases whole with ⟨outcome, value⟩ | value <;> rw [value] <;> rfl

end

section

open Reconciler.Shelf

structure Desk where
  stored : Workspace
  cancelled : Bool := false

def desk : World Desk where
  get _ d := .done (.ok (some d.stored)) d
  update given d := .done (.ok given) { d with stored := given }
  updateStatus given _ := .waits ⟨given, true⟩ (.done (.ok given) ⟨given, true⟩)
  now _ := .epoch
  draw d := (Shelf.soonest, d)
  cancelled := Desk.cancelled
  correlate d := ("", d)
  capture _ _ d := ([], d)

def clerk : Manager Desk where
  operator := "converge"
  controller := "workspaces"
  conditions := true
  subroutines := [{
    name := "dns"
    finalizers := []
    process w d := .done { workspace := w, result := .ok .done } d
    finalize w d := .done { workspace := w, result := .ok .done } d }]
  faultless := by decide

def interrupted : Ran Desk (Except Stop Finished) :=
  clerk.attempt desk site ⟨web, false⟩

-- The only subroutine is done and the last call has been made, and yet the reconcile ends as cancelled.
theorem given_up_in_the_last_call :
    interrupted.value = .error (.error .cancelled) ∧ clerk.spread = false ∧
      ∃ given answer last,
        calls interrupted.trace =
          [.fetched site (some (.ok (some web))), .stepped "dns" .process given (some answer),
            .statusUpdated last none] ∧
        answer.result = .ok .done ∧ interrupted.state.stored = last :=
  ⟨by decide +kernel, rfl, _, _, _, rfl, rfl, rfl⟩

theorem latched_desk : Latched desk :=
  ⟨fun _ cancelled => cancelled, fun _ cancelled => cancelled, fun _ _ _ cancelled => cancelled⟩

theorem nothing_after_cancellation_desk :
    interrupted.value = .error (.error .cancelled) ∧ Throughout (Timely desk) interrupted.trace ∧
      ∃ now fetched,
        Resolved (clerk.cycle desk site "") site now fetched (calls interrupted.trace) interrupted.value ∧
        fetched = web := by
  have found : Finds site interrupted.trace (interrupted.trace.get ⟨1, by decide +kernel⟩) web :=
    finds_get (by decide +kernel)
  obtain ⟨timely, _, ⟨now, fetched, same, resolved, _⟩, _⟩ := nothing_after_cancellation latched_desk
  exact ⟨by decide +kernel, timely, now, fetched, resolved, (same _ _ found).1⟩

end

end Cancellation

end Reconciler
