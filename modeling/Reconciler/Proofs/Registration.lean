import Reconciler.Proofs.FinalLedger
import Reconciler.Proofs.Finalizers
import Reconciler.Proofs.SweepOrder

set_option autoImplicit false

namespace Reconciler

open Reconcile

variable {σ : Type}

namespace Event

def known? : Event → Option Workspace
  | fetched _ (some (.ok (some found))) => some found
  | updated given (some (.ok _)) | statusUpdated given (some (.ok _)) => some given
  | _ => none

def separates : Event → Bool
  | fetched .. | stepped .. => true
  | _ => false

end Event

namespace Registration

def known (events : List Event) : Option Workspace :=
  (events.filterMap Event.known?).getLast?

-- The subroutine that has not had its step, and comes before all others that have not.
def upNext (m : Manager σ) (events : List Event) : Option (Subroutine σ) :=
  m.subroutines[(events.filterMap Event.step?).length]?

structure Adds (tokens : List Finalizer.Token) (before given : Workspace) : Prop where
  lacking : ∃ token ∈ tokens, token ∉ before.finalizers
  added : ∃ added, given.finalizers = before.finalizers ++ added ∧ added.Nodup ∧
    ∀ token, token ∈ added ↔ token ∈ tokens ∧ token ∉ before.finalizers

structure Between (events : List Event) (before : Workspace) : Prop where
  last : ∃ event, events.getLast? = some event ∧ event.separates = true
  known : known events = some before

inductive Equipped (tokens : List Finalizer.Token) : List Event → Prop where
  | spared {events before} :
      Between events before → (∀ token ∈ tokens, token ∈ before.finalizers) → Equipped tokens events
  | registered {events before given stored} :
      Between events before → Adds tokens before given →
      Equipped tokens (events ++ [.updated given (some (.ok stored))])

structure Ready (m : Manager σ) (sub : Subroutine σ) (events : List Event) : Prop where
  next : upNext m events = some sub
  equipped : Equipped sub.finalizers events
  carries : ∃ w, known events = some w ∧ ∀ token ∈ sub.finalizers, token ∈ w.finalizers

-- What the workspace is once its tokens could not be written: nothing but its ledger has changed,
-- and that tells of the error.
structure Tells (m : Manager σ) (sub : Subroutine σ) (error : Error) (given last : Workspace) : Prop where
  kept : m.conditions = false → last = given
  ledger : m.conditions = true → ∃ ledger, last = given.setConditions ledger
  subroutine : m.conditions = true → ∃ text, error.Says text ∧
    last.conditions.Shows (sub.name ++ "_Ready") .false "Error" ("The subroutine has an error: " ++ text)
  ready : m.conditions = true → ∃ text, error.Says text ∧
    last.conditions.Shows "Ready" .false "Error" ("The resource has an error: " ++ text)

-- The calls that come after tokens could not be written: no step, and of the writes only that of the status, which is
-- made if the status is not as it was fetched and the reconcile was not cancelled by its end.
inductive Stopped (world : World σ) (m : Manager σ) (sub : Subroutine σ) (error : Error) (fetched given : Workspace)
    (s : σ) : List Event → Prop where
  | cancelled : error = .cancelled → Stopped world m sub error fetched given s []
  | told {last answer} :
      error ≠ .cancelled → Tells m sub error given last → last.currentStatus ≠ fetched.currentStatus →
      Stopped world m sub error fetched given s [.statusUpdated last answer]
  | same {last} :
      error ≠ .cancelled → Tells m sub error given last → last.currentStatus = fetched.currentStatus →
      Stopped world m sub error fetched given s []
  | cutOff {last} :
      error ≠ .cancelled → Tells m sub error given last → last.currentStatus ≠ fetched.currentStatus →
      world.cancelled s = true → Stopped world m sub error fetched given s []

-- A write of tokens between calls: it adds those of the subroutine that were missing, and if it fails, the reconcile
-- does too.
structure Registers (world : World σ) (m : Manager σ) (sub : Subroutine σ) (fetched : Workspace) (past : List Event)
    (given : Workspace) (answer : Option (Except Error Workspace)) (rest : List Event) (value : Except Stop Outcome)
    (s : σ) : Prop where
  adds : ∃ before, Between past before ∧ Adds sub.finalizers before given
  fails : ∀ error, answer.getD (.error .cancelled) = .error error →
    value = .error (.error error) ∧ Stopped world m sub error fetched given s rest

def Falls (c : Cycle σ) (sub : Subroutine σ) (error : Error) (fetched given : Workspace) (rest : List Event)
    (w : Workspace) (s : σ) : Stage σ → Prop
  | .failed subroutine first => subroutine = sub.name ∧ first = error ∧ error ≠ .cancelled ∧ rest = [] ∧ w = given
  | .persisting (.failure first) =>
      first = error ∧ error ≠ .cancelled ∧ rest = [] ∧ Tells c.manager sub error given w
  | .reporting second next =>
      ∀ s', (second.shouldReport = true ∨ s' = s) → Falls c sub error fetched given rest w s' next
  | .ended value => value = .error (.error error) ∧ Stopped c.world c.manager sub error fetched given s rest
  | _ => False

def Refused (m : Manager σ) (sub : Subroutine σ) (error : Error) (given : Workspace) (past : List Event)
    (event : Event) : Prop :=
  upNext m past = some sub ∧
    ∃ answer, event = .updated given answer ∧ answer.getD (.error .cancelled) = .error error

section

variable {c : Cycle σ} {id : ResourceId} {now : Timestamp} {fetched : Workspace} {start s s' : σ}
variable {t piece : List (Moment σ)} {moment : Moment σ} {w w' found left given : Workspace} {stage next : Stage σ}
variable {events own writes : List Event} {sub : Subroutine σ} {todo : List (Subroutine σ)} {outcome : Outcome}
variable {turnouts : List (Turnout σ)} {tokens : List Finalizer.Token}

theorem processed_of_turns {result : Option (Except Error Outcome)} (live : found.isBeingDeleted = false)
    (turns : Turns c .process now sub found own result left) (fine : ∀ error, result ≠ some (.error error)) :
    ∃ writes given answer s s', own = writes ++ [.stepped sub.name .process given (some answer)] ∧
      Persisted ((entered c .process now sub found).register sub.finalizers) writes given ∧
      (sub.process given s).Ends (some answer) s' ∧ left.metadata = answer.workspace.metadata := by
  cases turns with
  | passed skipped => simp [Sweep.isSkipped] at skipped
  | taken _ taken =>
      cases taken with
      | processed _ persisted ends =>
          exact ⟨_, _, _, _, _, rfl, persisted, ends, SweepOrder.metadata_concluded _⟩
      | finalized deleted _ _ => simp [live] at deleted
  | unregistered => exact absurd rfl (fine _)
  | unreleased _ deleted _ _ => simp [live] at deleted

theorem finalizers_entered {phase : Phase} : (entered c phase now sub found).finalizers = found.finalizers :=
  SweepOrder.finalizers_of_metadata (Cycle.metadata_amend ..)

theorem adds_of_register {before : Workspace} (same : before.finalizers = w.finalizers)
    (changed : (w.register tokens).2 = true) : Adds tokens before (w.register tokens).1 := by
  refine ⟨same ▸ Finalizer.changed_register_iff.mp changed, Finalizer.missing tokens w.finalizers, ?_,
    Finalizer.nodup_missing .., fun token => same ▸ Finalizer.mem_missing⟩
  rw [same]
  exact Finalizer.register_eq tokens w.finalizers

def Abreast (events : List Event) (w : Workspace) : Prop :=
  ∃ before, Between events before ∧ before.finalizers = w.finalizers

theorem known_snoc_of_none {event : Event} (other : event.known? = none) :
    known (events ++ [event]) = known events := by
  simp [known, other]

theorem known_updated (events : List Event) (given stored : Workspace) :
    known (events ++ [.updated given (some (.ok stored))]) = some given := by
  simp [known, Event.known?]

theorem equipped_of_persisted (abreast : Abreast events w) (persisted : Persisted (w.register tokens) writes given) :
    Equipped tokens (events ++ writes) ∧
      ∃ last, known (events ++ writes) = some last ∧ last.finalizers = given.finalizers := by
  obtain ⟨before, between, same⟩ := abreast
  cases persisted with
  | spared unchanged =>
      have kept := Workspace.finalizers_register_of_unchanged unchanged
      have all : ∀ token ∈ tokens, token ∈ before.finalizers := fun token declared => by
        rw [same, ← kept]
        exact (Workspace.mem_finalizers_register tokens w).mpr (.inr declared)
      rw [List.append_nil]
      exact ⟨.spared between all, before, between.known, same.trans kept.symm⟩
  | written changed =>
      exact ⟨.registered between (adds_of_register same changed), _, known_updated .., rfl⟩

theorem steps_persisted {changed : Workspace × Bool} (persisted : Persisted changed writes given) :
    writes.filterMap Event.step? = [] := by
  cases persisted <;> rfl

variable (id) in
theorem abreast_sweeps (steady : c.manager.StepsKeep Workspace.metadata)
    (among : ∀ o ∈ turnouts, o.sub ∈ c.manager.subroutines) (live : fetched.isBeingDeleted = false)
    (sweeps : Sweeps c .process now (first c now fetched) turnouts w) (clean : ∀ o ∈ turnouts, o.failed = false) :
    Abreast (begun id fetched turnouts) w ∧
      ((begun id fetched turnouts).filterMap Event.step?).length = turnouts.length := by
  induction sweeps with
  | start =>
      refine ⟨⟨fetched, ⟨⟨_, rfl, rfl⟩, rfl⟩, ?_⟩, rfl⟩
      exact (SweepOrder.finalizers_of_metadata (Cycle.metadata_amend ..)).symm
  | @turn turnouts o before _ turns ih =>
      have among' : ∀ o ∈ turnouts, o.sub ∈ c.manager.subroutines := fun o member => among o (by simp [member])
      obtain ⟨abreast, count⟩ := ih among' fun o member => clean o (by simp [member])
      have found := (SweepOrder.isBeingDeleted_sweeps steady among' before).trans live
      have fine : ∀ error, o.result ≠ some (.error error) := fun error failed => by
        simpa [Turnout.failed, failed] using clean o (by simp)
      obtain ⟨writes, given, answer, s, s', own, persisted, ends, same⟩ := processed_of_turns found turns fine
      obtain ⟨last, known, kept⟩ := (equipped_of_persisted
        (abreast.imp fun _ between => ⟨between.1, between.2.trans finalizers_entered.symm⟩) persisted).2
      have left : o.left.finalizers = given.finalizers := SweepOrder.finalizers_of_metadata
        (same.trans (steady o.sub (among o (by simp)) .process _ _ _ _ ends))
      rw [begun_snoc, own, ← List.append_assoc]
      refine ⟨⟨last, ⟨⟨_, List.getLast?_concat, rfl⟩, (known_snoc_of_none rfl).trans known⟩, kept.trans left.symm⟩, ?_⟩
      simp [steps_persisted persisted, count, Event.step?]

variable (steady : c.manager.StepsKeep Workspace.metadata) (live : fetched.isBeingDeleted = false)

include steady live

variable (id) in
theorem abreast_progress (progress : Progress c now fetched turnouts w todo outcome) :
    Abreast (begun id fetched turnouts) w ∧
      ((begun id fetched turnouts).filterMap Event.step?).length = turnouts.length := by
  have phase : fetched.phase = .process := by simp [Workspace.phase, live]
  have sweeps := progress.chain
  rw [phase] at sweeps
  refine abreast_sweeps id steady (fun o member => ?_) live sweeps progress.clean
  rw [progress.order]
  exact List.mem_append_left _ (List.mem_map_of_mem member)

variable (id) in
theorem upNext_of_progress (progress : Progress c now fetched turnouts w todo outcome) :
    upNext c.manager (begun id fetched turnouts) = todo.head? := by
  have count := (abreast_progress id steady live progress).2
  rw [upNext, count, progress.order, List.getElem?_append_right (by simp)]
  simp [List.head?_eq_getElem?]

theorem ready_of_stepping (course : Course c id now fetched start t (.stepping .process sub todo outcome) w s) :
    Ready c.manager sub (calls t) := by
  obtain ⟨turnouts, found, own, progress, _, done, _, persisted⟩ := course.accounts
  have phase : fetched.phase = .process := by simp [Workspace.phase, live]
  rw [phase] at persisted
  obtain ⟨abreast, _⟩ := abreast_progress id steady live progress
  obtain ⟨equipped, last, known, same⟩ := equipped_of_persisted
    (abreast.imp fun _ between => ⟨between.1, between.2.trans finalizers_entered.symm⟩) persisted
  have next : upNext c.manager (calls t) = some sub := by
    have before := upNext_of_progress id steady live progress
    rw [upNext] at before ⊢
    simpa [done, steps_persisted persisted] using before
  rw [← done] at equipped known
  refine ⟨next, equipped, last, known, fun token declared => ?_⟩
  rw [same, SweepOrder.finalizers_persisted persisted]
  exact (Workspace.mem_finalizers_register ..).mpr (.inr declared)

theorem registers_of_writing {purpose : Purpose σ} (course : Course c id now fetched start t (.writing purpose) w s)
    (next : upNext c.manager (calls t) = some sub) :
    (∃ todo outcome, purpose = .register sub todo outcome) ∧
      ∃ before, Between (calls t) before ∧ Adds sub.finalizers before w := by
  have phase : fetched.phase = .process := by simp [Workspace.phase, live]
  have accounts := course.accounts
  cases purpose with
  | register other todo outcome =>
      obtain ⟨turnouts, found, own, progress, _, done, rfl, _, changed⟩ := accounts
      rw [List.append_nil] at done
      obtain rfl : other = sub := by
        have there := upNext_of_progress id steady live progress
        rw [← done, next] at there
        exact (Option.some.inj there).symm
      obtain ⟨⟨before, between, same⟩, _⟩ := abreast_progress id steady live progress
      refine ⟨⟨todo, outcome, rfl⟩, before, done ▸ between, ?_⟩
      obtain ⟨rfl, changed⟩ := Prod.ext_iff.mp changed
      exact adds_of_register (same.trans finalizers_entered.symm) changed
  | release other todo outcome result =>
      obtain ⟨turnouts, found, own, progress, _, _, _, ⟨deleted, _⟩, _⟩ := accounts
      have among : ∀ o ∈ turnouts, o.sub ∈ c.manager.subroutines := fun o member => by
        rw [progress.order]
        exact List.mem_append_left _ (List.mem_map_of_mem member)
      simp [SweepOrder.isBeingDeleted_sweeps steady among progress.chain, live] at deleted
  | unlabel outcome =>
      obtain ⟨turnouts, last, writes, kept, closes, status, _, _, done⟩ := accounts
      obtain ⟨left, progress⟩ := closes.progress
      have none := upNext_of_progress id steady live progress
      have idle : writes.filterMap Event.step? = [] := by cases status <;> rfl
      rw [upNext, done, List.filterMap_append, idle, List.append_nil, ← upNext, none] at next
      simp at next

omit steady live in
theorem unrefused_of_ne {error : Error} {event : Event} (other : ∀ given answer, event ≠ .updated given answer) :
    ¬Refused c.manager sub error given events event := by
  rintro ⟨_, answer, same, _⟩
  exact other given answer same

omit steady live in
theorem since_stated {verdict : Verdict} {error : Error} {answer : Option (Except Error Workspace)}
    (since : Since (Refused c.manager sub error given) (Falls c sub error fetched given) t w s (.persisting verdict))
    (differs : w.currentStatus ≠ fetched.currentStatus)
    (asked : Run.Asked c.world.cancelled (c.world.updateStatus w) (.statusUpdated w) s answer piece s')
    (onward : ∀ rest, verdict = .failure error →
      (∀ last, (answer = none → last = s') → Stopped c.world c.manager sub error fetched given last rest) →
      Falls c sub error fetched given rest w' s' next) :
    Since (Refused c.manager sub error given) (Falls c sub error fetched given) (t ++ piece) w' s' next := by
  have failure {rest : List Event} (falls : Falls c sub error fetched given rest w s (.persisting verdict)) :
      verdict = .failure error ∧ error ≠ .cancelled ∧ rest = [] ∧ Tells c.manager sub error given w := by
    cases verdict with
    | outcome => exact falls.elim
    | failure first => exact ⟨falls.1 ▸ rfl, falls.2⟩
  rcases asked.ends with ⟨none, rfl, _⟩ | ⟨rfl, _⟩
  · subst none
    rw [List.append_nil]
    refine since.onward fun rest falls => ?_
    obtain ⟨verdict, other, rfl, tells⟩ := failure falls
    exact onward [] verdict fun last same => .cutOff other tells differs (same rfl ▸ asked.stopped)
  · refine since.snoc (fun rest falls => ?_) fun refused => absurd refused (unrefused_of_ne (by simp))
    obtain ⟨verdict, other, rfl, tells⟩ := failure falls
    exact onward _ verdict fun _ _ => .told other tells differs

omit steady live in
theorem falls_breakdown (sub : Subroutine σ) (error : Error) :
    Falls c sub error fetched w [] w s (.breakdown sub.name error) := by
  unfold Stage.breakdown
  split
  · rename_i cancelled
    exact ⟨by rw [cancelled], .cancelled cancelled⟩
  · exact ⟨rfl, rfl, by assumption, rfl, rfl⟩

omit steady live in
theorem amend_amend (first second : Ledger → Ledger × Bool) (w : Workspace) (managed : c.manager.conditions = true) :
    ∃ ledger, c.amend second (c.amend first w) = w.setConditions ledger := by
  rw [Cycle.amend_of_conditions managed, Cycle.amend_of_conditions managed]
  exact ⟨_, rfl⟩

omit steady in
theorem tells_abort (sub : Subroutine σ) (error : Error) (w : Workspace) :
    Tells c.manager sub error w (c.amend (Ledger.setReadyError now error.failureMessage)
      (c.amend (Ledger.failed now sub.name fetched.phase error.failureMessage) w)) := by
  have phase : fetched.phase = .process := by simp [Workspace.phase, live]
  rw [phase]
  refine ⟨fun unmanaged => ?_, fun managed => amend_amend _ _ w managed, fun managed => ?_, fun managed => ?_⟩
  · simp [Cycle.amend, unmanaged]
  · rw [conditions_amend managed, conditions_amend managed, ← Phase.conditionType_process]
    exact ⟨_, error.says_failureMessage,
      (Ledger.shows_set ⟨Phase.process.conditionType sub.name, .false, _, _, now⟩ _).set
        (Phase.conditionType_ne_ready _ _).symm⟩
  · rw [conditions_amend managed]
    exact ⟨_, error.says_failureMessage, Ledger.shows_set ⟨Condition.ready, .false, _, _, now⟩ _⟩

theorem falls_of_course (error : Error) (given : Workspace) (course : Course c id now fetched start t stage w s) :
    Since (Refused c.manager sub error given) (Falls c sub error fetched given) t w s stage := by
  have fresh (event : Event) (other : ∀ given answer, event ≠ .updated given answer) {events : List Event}
      {w : Workspace} {s : σ} {stage : Stage σ} (refused : Refused c.manager sub error given events event) :
      Falls c sub error fetched given [] w s stage := absurd refused (unrefused_of_ne other)
  induction course with
  | start => exact fun past moment rest split => by simp at split
  | note _ _ ih => exact ih.quiet rfl (unrefused_of_ne (by simp))
  | unread _ asked _ ih => exact ih.asked (fun _ falls => falls) asked (fresh _ (by simp))
  | absent _ asked ih => exact ih.asked (fun _ falls => falls) asked (fresh _ (by simp))
  | skip _ asked _ _ ih => exact ih.asked (fun _ falls => falls) asked (fresh _ (by simp))
  | fetch _ asked _ _ ih => exact ih.asked (fun _ falls => falls) asked (fresh _ (by simp))
  | step _ asked ih => exact ih.asked (fun _ falls => falls) asked (fresh _ (by simp))
  | drop _ asked ih => exact ih.asked (fun _ falls => falls) asked (fresh _ (by simp))
  | written _ asked ih =>
      refine ih.asked (fun _ falls => falls) asked ?_
      rintro ⟨_, _, ⟨⟩, failed⟩
      simp at failed
  | @unwritten _ purpose _ _ answer _ _ error course asked answered ih =>
      refine ih.asked (fun _ falls => falls) asked ?_
      rintro ⟨next, _, ⟨⟩, same⟩ last _
      obtain ⟨⟨todo, outcome, rfl⟩, _⟩ := registers_of_writing steady live course next
      obtain rfl := Except.error.inj (answered.symm.trans same)
      exact falls_breakdown sub error
  | fail _ ih => exact (ih.quiet rfl (unrefused_of_ne (by simp))).onward fun _ => False.elim
  | report _ reported ih =>
      exact (ih.quiet rfl (unrefused_of_ne (by simp))).onward fun _ falls => falls _ (.inl reported)
  | conceal _ _ ih => exact ih.onward fun _ falls => falls _ (.inr rfl)
  | @abort _ subroutine first _ _ _ ih =>
      refine ih.onward ?_
      rintro rest ⟨rfl, rfl, other, rfl, rfl⟩
      exact ⟨rfl, other, rfl, tells_abort live sub first _⟩
  | @unchanged _ verdict _ _ _ same ih =>
      refine ih.onward fun rest falls => ?_
      cases verdict with
      | outcome => exact falls.elim
      | failure first =>
          obtain ⟨rfl, other, rfl, tells⟩ := falls
          exact ⟨rfl, .same other tells same⟩
  | persist _ differs asked ih =>
      refine since_stated ih differs asked ?_
      rintro rest rfl stopped
      exact ⟨rfl, stopped _ fun _ => rfl⟩
  | vanish _ differs asked _ _ ih =>
      refine since_stated ih differs asked ?_
      rintro rest rfl stopped
      exact ⟨rfl, stopped _ fun _ => rfl⟩
  | refuse _ differs asked answered _ ih =>
      refine since_stated ih differs asked ?_
      rintro rest rfl stopped last left
      refine ⟨rfl, stopped last ?_⟩
      rintro rfl
      obtain rfl := Except.error.inj answered
      exact left.resolve_left (by decide)
  | stop _ _ ih | pass _ _ _ ih | enter _ _ _ ih | condemned _ _ ih => exact ih.onward fun _ => False.elim
  | equipped _ _ _ ih | register _ _ _ ih | keep _ _ ih | release _ _ ih => exact ih.onward fun _ => False.elim
  | complete _ ih | conclude _ _ ih | schedule _ _ _ ih => exact ih.onward fun _ => False.elim
  | beyond _ _ _ ih | finish _ _ ih | unlabel _ _ ih => exact ih.onward fun _ => False.elim

end

section

variable {m : Manager σ} {world : World σ} {id : ResourceId} {s : σ} {read : Moment σ} {fetched : Workspace}

/-- The tokens of a subroutine are stored before its step starts on a live resource; and if they cannot be, neither it
nor any other starts. -/
theorem registered_first (steady : m.StepsKeep Workspace.metadata)
    (found : Finds id (m.reconcile world id s).trace read fetched) (live : fetched.isBeingDeleted = false) :
    let ran := m.reconcile world id s
    Throughout (fun past moment => ∀ sub ∈ m.subroutines, moment.event.starts sub.name = true →
      Ready m sub (calls past)) ran.trace ∧
    ∀ past moment rest, ran.trace = past ++ moment :: rest → ∀ given answer sub, moment.event = .updated given answer →
      upNext m (calls past) = some sub →
      Registers world m sub fetched (calls past) given answer (calls rest) ran.value ran.state := by
  obtain ⟨now, _, left, course⟩ := m.attempt_course world id s
  obtain ⟨rfl, _⟩ := course.found_eq (finds_reconcile.mp found)
  constructor
  · refine Manager.reconcile_of_attempt (P := Throughout _) ?_ fun _ _ _ earlier =>
      earlier.snoc (by simp [Event.starts])
    refine course.throughout ?_ (by simp [Event.starts]) ?_ (by simp [Event.starts]) (by simp [Event.starts])
    · intro past moment quiet sub _ starts
      rcases moment with ⟨event, _, _⟩
      cases event <;> simp_all [Event.isCall, Event.starts]
    · intro t phase own todo outcome w s answer s' course sub member starts
      cases phase with
      | finalize => simp [Event.starts] at starts
      | process =>
          have mine := course.mem_of_agenda List.mem_cons_self
          obtain rfl := m.eq_of_name mine member (by simpa [Event.starts] using starts)
          exact ready_of_stepping steady live course
  · intro past moment rest split given answer sub event next
    obtain ⟨back, there, same⟩ := attempt_split split (by rw [event]; rfl)
    have adds : Throughout (fun past moment => ∀ given answer sub, moment.event = .updated given answer →
        upNext m (calls past) = some sub → ∃ before, Between (calls past) before ∧ Adds sub.finalizers before given)
        (m.attempt world id s).trace := by
      refine course.throughout ?_ (by simp) (by simp) ?_ (by simp)
      · rintro past moment quiet given answer sub event
        simp [event, Event.isCall] at quiet
      · rintro t purpose w s answer s' course _ _ sub ⟨⟩ next
        exact (registers_of_writing steady live course next).2
    refine ⟨adds past moment back there given answer sub event next, fun error answered => ?_⟩
    obtain ⟨value, stopped⟩ := falls_of_course steady live error given course past moment back there
      ⟨next, answer, event, answered⟩
    rw [same, (m.reconcile_attempt world id s).1, m.value_reconcile, value]
    exact ⟨rfl, stopped⟩

end

section

open Reconciler.Shelf

def registrar : Manager (Shelf site) where
  operator := "converge"
  controller := "workspaces"
  subroutines := [worker "dns" ["dns"] leave leave, worker "mail" ["dns", "mail", "mail"] leave leave]
  conditions := true
  faultless := by decide

def outrun : Ran (Shelf site) (Except Stop Outcome) :=
  registrar.reconcile (Shelf.world site) site (stocked web [none, none, some (.retarget "other")] .epoch)

-- Somebody else comes in before the second subroutine is registered, so that only the first is started.
theorem registered_first_outrun :
    outrun.value = .error (.error (.client (.api ⟨"Failure", "Conflict from shelf", "Conflict", 409⟩))) ∧
      outrun.trace.countP (·.event.starts "dns") = 1 ∧ outrun.trace.countP (·.event.starts "mail") = 0 ∧
      Throughout (fun past moment => ∀ sub ∈ registrar.subroutines, moment.event.starts sub.name = true →
        Ready registrar sub (calls past)) outrun.trace ∧
      ∀ past moment rest, outrun.trace = past ++ moment :: rest → ∀ given answer sub,
        moment.event = .updated given answer → upNext registrar (calls past) = some sub →
          Registers (Shelf.world site) registrar sub (web.setResourceVersion (some "1")) (calls past) given answer
            (calls rest) outrun.value outrun.state := by
  have steady : registrar.StepsKeep Workspace.metadata := by
    intro sub member phase w s answer s' ends
    simp only [registrar, List.mem_cons, List.not_mem_nil, or_false] at member
    rcases member with rfl | rfl <;> obtain ⟨_, same | same⟩ := answer_of_worker ends <;> cases same <;> rfl
  have found : Finds site outrun.trace (outrun.trace.get ⟨1, by decide +kernel⟩)
      (web.setResourceVersion (some "1")) := finds_get (by decide +kernel)
  obtain ⟨ready, registers⟩ := registered_first steady found (by decide)
  exact ⟨by decide +kernel, by decide +kernel, by decide +kernel, ready, registers⟩

end

end Registration

end Reconciler
