import Reconciler.Proofs.Chronicle.Shelf
import Reconciler.Proofs.Course.Turnout
import Reconciler.Proofs.Ledger

set_option autoImplicit false

namespace Reconciler

open Reconcile

variable {σ : Type}

namespace Event

def step? : Event → Option (String × Phase)
  | stepped subroutine phase _ _ => some (subroutine, phase)
  | _ => none

def shown? : Event → Option Workspace
  | fetched _ (some (.ok (some found))) => some found
  | stepped _ _ _ (some answer) => some answer.workspace
  | _ => none

def stores : Event → Bool
  | updated _ (some (.ok _)) => true
  | _ => false

def refusal? : Event → Option Error
  | updated _ (some (.error error)) => some error
  | statusUpdated given (some (.error error)) => if Vanished given error then none else some error
  | _ => none

end Event

namespace SweepOrder

def remaining (present : List Finalizer.Token) (turnouts : List (Turnout σ)) : List Finalizer.Token :=
  turnouts.foldl (fun present o =>
    match o.result with
    | some (.ok outcome) => if outcome.isDone then present.filter (!o.sub.finalizers.contains ·) else present
    | _ => present) present

def Applicable (fetched : Workspace) (o : Turnout σ) : Prop :=
  fetched.isBeingDeleted = false ∨ ∃ token ∈ o.sub.finalizers, token ∈ o.found.finalizers

inductive Once (phase : Phase) (sub : Subroutine σ) : List Event → Option (Except Error Outcome) → Prop where
  | passed : Once phase sub [] none
  | unregistered {given error} :
      phase = .process → Once phase sub [.updated given (some (.error error))] (some (.error error))
  | stepped {before after given answer} :
      (∀ event ∈ before ++ after, event.stores = true) →
      Once phase sub (before ++ .stepped sub.name phase given (some answer) :: after)
        (some (answer.result.mapError (.subroutine sub.name)))
  | unreleased {given answer written error} :
      phase = .finalize →
      Once phase sub [.stepped sub.name phase given (some answer), .updated written (some (.error error))]
        (some (.error error))

structure Orderly (m : Manager σ) (fetched : Workspace) (turnouts : List (Turnout σ)) : Prop where
  order : turnouts.map (·.sub) <+: m.subroutines
  whole : (∀ o ∈ turnouts, o.failed = false) → turnouts.map (·.sub) = m.subroutines
  aborts : ∀ past o rest, turnouts = past ++ o :: rest → o.failed = true → rest = []
  applicable : ∀ o ∈ turnouts, o.result.isSome ↔ Applicable fetched o
  tokens : fetched.isBeingDeleted = true → ∀ past o rest, turnouts = past ++ o :: rest →
    o.found.finalizers = remaining fetched.finalizers past
  once : ∀ o ∈ turnouts, Once fetched.phase o.sub o.calls o.result

def Spares (type : String) : Option Condition → List Event → Prop
  | _, [] => True
  | seen, event :: rest =>
      (∀ given, event.given? = some given → given.conditions.find? type = seen) ∧
        Spares type ((event.shown?.map (·.conditions.find? type)).getD seen) rest

-- Nothing is asked of the subroutine, and nothing but the steps of others changes its condition.
structure Untouched (phase : Phase) (fetched : Workspace) (sub : Subroutine σ) (events : List Event) : Prop where
  idle : ∀ event ∈ events, ∀ taken, event.step? ≠ some (sub.name, taken)
  spared : Spares (phase.conditionType sub.name) (fetched.conditions.find? (phase.conditionType sub.name)) events

-- What a reconcile comes to, after its turns and what it then has written.
structure Resolves (c : Cycle σ) (now : Timestamp) (fetched : Workspace) (turnouts : List (Turnout σ))
    (closing : List Event) (value : Except Stop Finished) : Prop where
  writes : ∀ event ∈ closing, event.isWrite = true
  failure : ∀ o ∈ turnouts, ∀ error, o.result = some (.error error) → value = .error (.error error)
  success : (∀ o ∈ turnouts, o.failed = false) →
    value = (match closing.findSome? Event.refusal? with
      | some error => .error (.error error)
      | none => .ok (.reconciled (merged turnouts))) ∨
    value = .error .beyondCalendar ∧ closing = [] ∧ schedules c fetched.phase (merged turnouts) = true ∧
      ∃ minutes, now.addSeconds? (Spread.delay minutes).seconds = none

section

variable {c : Cycle σ} {phase : Phase} {now : Timestamp} {sub : Subroutine σ} {found left w w' : Workspace}
variable {own : List Event} {turnouts past rest : List (Turnout σ)} {o : Turnout σ}

theorem finalizers_persisted {changed : Workspace × Bool} (persisted : Persisted changed own w) :
    w.finalizers = changed.1.finalizers := by
  cases persisted <;> rfl

theorem metadata_concluded (result : Except OperatorError Outcome) :
    (concluded c phase now sub result w).metadata = w.metadata := by
  unfold concluded
  split
  · split <;> simp
  · rfl

theorem finalizers_of_metadata (same : w.metadata = w'.metadata) : w.finalizers = w'.finalizers := by
  rw [Workspace.finalizers, same]
  rfl

theorem blind_isBeingDeleted (steady : c.manager.StepsKeep Workspace.metadata) : Blind c Workspace.isBeingDeleted where
  steps sub member phase w s answer s' ends :=
    congrArg (·.deletionTimestamp.isSome) (steady sub member phase w s answer s' ends)
  conditions _ _ := rfl
  finalizers _ _ := rfl
  version _ _ := rfl

theorem finalizers_turns (steady : c.manager.StepsKeep Workspace.metadata) (member : o.sub ∈ c.manager.subroutines)
    (turns : Turns c phase now o.sub o.found o.calls o.result o.left) (fine : o.failed = false)
    (condemned : o.found.isBeingDeleted = true) : o.left.finalizers = remaining o.found.finalizers [o] := by
  obtain ⟨sub, found, own, result, left⟩ := o
  dsimp only at member turns condemned ⊢
  cases turns with
  | passed => rfl
  | @taken _ result _ _ taken =>
      rw [finalizers_of_metadata (metadata_concluded _)]
      cases taken with
      | processed live _ _ => simp [live] at condemned
      | @finalized _ answer _ _ _ _ ends persisted =>
          have kept : answer.workspace.finalizers = found.finalizers :=
            (finalizers_of_metadata (steady sub member .finalize _ _ _ _ ends)).trans
              (finalizers_of_metadata (Cycle.metadata_amend ..))
          rw [finalizers_persisted persisted, Workspace.finalizers_releaseIfIdle, kept]
          rcases ended : answer.result with failure | outcome
          · simp [ended, Except.mapError, Turnout.failed] at fine
          · by_cases done : outcome.isDone = true <;>
              simp [remaining, Except.mapError, Finalizer.releaseIfIdle, done]
  | unregistered | unreleased => simp [Turnout.failed] at fine

theorem remaining_snoc (present : List Finalizer.Token) (turnouts : List (Turnout σ)) (o : Turnout σ) :
    remaining present (turnouts ++ [o]) = remaining (remaining present turnouts) [o] := by
  simp [remaining]

variable {fetched : Workspace}

theorem isBeingDeleted_sweeps (steady : c.manager.StepsKeep Workspace.metadata)
    (among : ∀ o ∈ turnouts, o.sub ∈ c.manager.subroutines)
    (sweeps : Sweeps c phase now (first c now fetched) turnouts w) : w.isBeingDeleted = fetched.isBeingDeleted :=
  (blind_isBeingDeleted steady).sweeps among sweeps

theorem finalizers_sweeps (steady : c.manager.StepsKeep Workspace.metadata)
    (among : ∀ o ∈ turnouts, o.sub ∈ c.manager.subroutines)
    (sweeps : Sweeps c phase now (first c now fetched) turnouts w) (clean : ∀ o ∈ turnouts, o.failed = false)
    (condemned : fetched.isBeingDeleted = true) : w.finalizers = remaining fetched.finalizers turnouts := by
  induction sweeps with
  | start => exact finalizers_of_metadata (Cycle.metadata_amend ..)
  | @turn turnouts o before _ turns ih =>
      have among' : ∀ o ∈ turnouts, o.sub ∈ c.manager.subroutines := fun o member => among o (by simp [member])
      have found := ih among' fun o member => clean o (by simp [member])
      have deleted := (isBeingDeleted_sweeps steady among' before).trans condemned
      rw [finalizers_turns steady (among o (by simp)) turns (clean o (by simp)) deleted, found, remaining_snoc]

theorem isSome_result_iff {result : Option (Except Error Outcome)}
    (turns : Turns c phase now sub found own result left) :
    result.isSome = true ↔ Sweep.isSkipped phase sub found = false := by
  cases turns <;> simp_all

theorem isSkipped_eq_false_iff :
    Sweep.isSkipped found.phase sub w = false ↔
      found.isBeingDeleted = false ∨ ∃ token ∈ sub.finalizers, token ∈ w.finalizers := by
  rcases live : found.isBeingDeleted with _ | _ <;>
    simp [Sweep.isSkipped, Workspace.phase, live, Finalizer.isRegistered]

theorem once_of_turns {result : Option (Except Error Outcome)} (same : found.isBeingDeleted = fetched.isBeingDeleted)
    (turns : Turns c fetched.phase now sub found own result left) : Once fetched.phase sub own result := by
  have stored {changed : Workspace × Bool} {writes : List Event} {w : Workspace}
      (persisted : Persisted changed writes w) : ∀ event ∈ writes, event.stores = true := by
    cases persisted <;> simp [Event.stores]
  cases turns with
  | passed => exact .passed
  | taken _ taken =>
      cases taken with
      | processed live before _ =>
          have phase : Phase.process = fetched.phase := by simp [Workspace.phase, ← same, live]
          rw [phase]
          exact .stepped (by simpa using stored before)
      | finalized deleted _ after =>
          have phase : Phase.finalize = fetched.phase := by simp [Workspace.phase, ← same, deleted]
          rw [phase]
          rw [← List.nil_append (_ :: _)]
          exact .stepped (by simpa using stored after)
  | unregistered _ live _ => exact .unregistered (by simp [Workspace.phase, ← same, live])
  | unreleased _ deleted _ _ =>
      have phase : Phase.finalize = fetched.phase := by simp [Workspace.phase, ← same, deleted]
      rw [phase]
      exact .unreleased phase.symm

theorem orderly_of_sweeps (steady : c.manager.StepsKeep Workspace.metadata)
    (order : turnouts.map (·.sub) <+: c.manager.subroutines)
    (whole : (∀ o ∈ turnouts, o.failed = false) → turnouts.map (·.sub) = c.manager.subroutines)
    (sweeps : Sweeps c fetched.phase now (first c now fetched) turnouts w) :
    Orderly c.manager fetched turnouts := by
  have among : ∀ o ∈ turnouts, o.sub ∈ c.manager.subroutines :=
    fun o member => order.subset (List.mem_map_of_mem member)
  refine ⟨order, whole, fun past o rest split => (sweeps.split split).2.2.2, fun o member => ?_,
    fun condemned past o rest split => ?_, fun o member => ?_⟩
  · -- A turn is passed over for the phase of the sweep, and that is the one of the workspace that was fetched.
    exact (isSome_result_iff (sweeps.turns member)).trans isSkipped_eq_false_iff
  · obtain ⟨before, clean, _⟩ := sweeps.split split
    exact finalizers_sweeps steady (fun o member => among o (by simp [split, member])) before clean condemned
  · obtain ⟨past, rest, split⟩ := List.append_of_mem member
    obtain ⟨before, _, turns, _⟩ := sweeps.split split
    have same := isBeingDeleted_sweeps steady (fun o member => among o (by simp [split, member])) before
    exact once_of_turns same turns

variable {type : String} {seen : Option Condition} {events : List Event} {s : σ}

def known (type : String) (seen : Option Condition) (events : List Event) : Option Condition :=
  events.foldl (fun seen event => (event.shown?.map (·.conditions.find? type)).getD seen) seen

theorem spares_append (type : String) (seen : Option Condition) (before after : List Event) :
    Spares type seen (before ++ after) ↔ Spares type seen before ∧ Spares type (known type seen before) after := by
  induction before generalizing seen with
  | nil => simp [Spares, known]
  | cons event rest ih => simp [Spares, known, ih, and_assoc]

theorem find?_amend {change : Ledger → Ledger × Bool} (w : Workspace)
    (apart : ∀ ledger, (change ledger).1.find? type = ledger.find? type) :
    (c.amend change w).conditions.find? type = w.conditions.find? type := by
  unfold Cycle.amend
  split
  · exact apart _
  · rfl

theorem spares_persisted {changed : Workspace × Bool} (persisted : Persisted changed events w)
    (shown : changed.1.conditions.find? type = seen) :
    Spares type seen events ∧ known type seen events = seen ∧ w.conditions.find? type = seen := by
  cases persisted with
  | spared => exact ⟨trivial, rfl, shown⟩
  | written => exact ⟨⟨by rintro _ ⟨⟩; exact shown, trivial⟩, rfl, shown⟩

theorem spares_turns {result : Option (Except Error Outcome)}
    (turns : Turns c phase now sub found own result left) (other : phase.conditionType sub.name ≠ type) :
    Spares type (found.conditions.find? type) own ∧
      known type (found.conditions.find? type) own = left.conditions.find? type := by
  have entry : (entered c phase now sub found).conditions.find? type = found.conditions.find? type :=
    find?_amend found fun ledger => by simp [Ledger.processing, Ledger.setSubroutine, Ledger.find?_set, other]
  cases turns with
  | passed => exact ⟨trivial, rfl⟩
  | @taken _ result w _ taken =>
      have last : (concluded c phase now sub result w).conditions.find? type = w.conditions.find? type := by
        unfold concluded
        split
        · split
          · exact find?_amend w fun ledger => by simp [Ledger.complete, Ledger.setSubroutine, Ledger.find?_set, other]
          · rfl
        · rfl
      rw [last]
      cases taken with
      | processed _ before _ =>
          obtain ⟨spares, same, given⟩ := spares_persisted before entry
          rw [spares_append, same]
          refine ⟨⟨spares, by rintro _ ⟨⟩; exact given, trivial⟩, ?_⟩
          simp [known, Event.shown?]
      | @finalized _ answer _ writes _ _ _ after =>
          obtain ⟨spares, same, given⟩ := spares_persisted after
            (congrArg (·.find? type) (conditions_releaseIfIdle sub.finalizers answer.result answer.workspace))
          exact ⟨⟨by rintro _ ⟨⟩; exact entry, spares⟩, same.trans given.symm⟩
  | unregistered => exact ⟨⟨by rintro _ ⟨⟩; exact entry, trivial⟩, entry.symm⟩
  | @unreleased _ answer _ _ _ _ _ _ =>
      have same : (answer.workspace.releaseIfIdle sub.finalizers answer.result).1.conditions.find? type =
          answer.workspace.conditions.find? type := congrArg (·.find? type) (conditions_releaseIfIdle ..)
      exact ⟨⟨by rintro _ ⟨⟩; exact entry, by rintro _ ⟨⟩; exact same, trivial⟩, same.symm⟩

theorem spares_sweeps (others : ∀ o ∈ turnouts, phase.conditionType o.sub.name ≠ type)
    (unready : Condition.ready ≠ type) (sweeps : Sweeps c phase now (first c now fetched) turnouts w) :
    Spares type (fetched.conditions.find? type) (turnouts.flatMap (·.calls)) ∧
      known type (fetched.conditions.find? type) (turnouts.flatMap (·.calls)) = w.conditions.find? type := by
  induction sweeps with
  | start =>
      refine ⟨trivial, (find?_amend fetched fun ledger => ?_).symm⟩
      unfold Ledger.setUnknownIfAbsent
      split
      · rfl
      · simp [Ledger.setReady, Ledger.find?_set, unready]
  | @turn turnouts o _ _ turns ih =>
      obtain ⟨spares, same⟩ := ih fun o member => others o (by simp [member])
      obtain ⟨spared, last⟩ := spares_turns turns (others o (by simp))
      have joined : (turnouts ++ [o]).flatMap (·.calls) = turnouts.flatMap (·.calls) ++ o.calls := by simp
      -- What the earlier turns have let be known of the condition is what this turn finds.
      rw [joined, spares_append, same]
      refine ⟨⟨spares, spared⟩, ?_⟩
      rw [known, List.foldl_append]
      exact (congrArg (known type · o.calls) same).trans last

theorem spares_closes {verdict : Verdict} {last : Workspace} (closes : Closes c now fetched turnouts verdict last)
    (others : ∀ o ∈ turnouts, fetched.phase.conditionType o.sub.name ≠ type) (unready : Condition.ready ≠ type) :
    Spares type (fetched.conditions.find? type) (turnouts.flatMap (·.calls)) ∧
      known type (fetched.conditions.find? type) (turnouts.flatMap (·.calls)) = last.conditions.find? type := by
  have ready (status : ConditionStatus) (w : Workspace) :
      (c.amend (Ledger.setReady now status) w).conditions.find? type = w.conditions.find? type :=
    find?_amend w fun ledger => by simp [Ledger.setReady, Ledger.find?_set, unready]
  cases closes with
  | broken broken =>
      obtain ⟨past, o, todo, outcome, rfl, progress, turns, rfl, _, rfl⟩ := broken
      have swept := spares_sweeps others unready (progress.chain.turn progress.clean turns)
      have other := others o (by simp)
      rw [find?_amend, find?_amend]
      · exact swept
      · intro ledger
        simp [Ledger.failed, Ledger.setSubroutine, Ledger.find?_set, other]
      · intro ledger
        simp [Ledger.setReadyError, Ledger.find?_set, unready]
  | whole progress _ =>
      rw [ready]
      exact spares_sweeps others unready progress.chain
  | scheduled progress _ drawn =>
      rw [ready, conditions_scheduleNext? drawn]
      exact spares_sweeps others unready progress.chain

theorem spares_kept {last : Workspace} (kept : StatusKept fetched last events w) :
    Spares type (last.conditions.find? type) events ∧
      known type (last.conditions.find? type) events = last.conditions.find? type ∧
      w.conditions = last.conditions := by
  cases kept with
  | same => exact ⟨trivial, rfl, rfl⟩
  | stored | gone => exact ⟨⟨by rintro _ ⟨⟩; rfl, trivial⟩, rfl, rfl⟩

theorem spares_closing {last : Workspace} {verdict : Verdict} {value : Except Stop Finished}
    (close : Closing c fetched last s verdict events value) : Spares type (last.conditions.find? type) events := by
  cases close with
  | refused => exact ⟨by rintro _ ⟨⟩; rfl, trivial⟩
  | failed kept | finished kept _ => exact (spares_kept kept).1
  | @unlabelled _ _ w _ kept _ | @labelled _ _ w _ kept _ =>
      obtain ⟨spares, same, conditions⟩ := spares_kept kept
      have label : (Spread.clearRefreshMarker w).1.conditions.find? type = last.conditions.find? type := by
        rw [← conditions]
        rfl
      rw [spares_append, same]
      exact ⟨spares, by rintro _ ⟨⟩; exact label, trivial⟩
  | cutOff _ _ start =>
      rcases start with rfl | rfl
      · trivial
      · exact ⟨by rintro _ ⟨⟩; rfl, trivial⟩

theorem writes_closing {last : Workspace} {verdict : Verdict} {value : Except Stop Finished}
    (close : Closing c fetched last s verdict events value) : ∀ event ∈ events, event.isWrite = true := by
  have status {writes : List Event} {w : Workspace} (kept : StatusKept fetched last writes w) :
      ∀ event ∈ writes, event.isWrite = true := by
    cases kept <;> simp [Event.isWrite]
  cases close with
  | refused => simp [Event.isWrite]
  | failed kept | finished kept _ => exact status kept
  | unlabelled kept _ | labelled kept _ =>
      intro event member
      rcases List.mem_append.mp member with early | last
      · exact status kept event early
      · obtain rfl := List.mem_singleton.mp last
        rfl
  | cutOff _ _ start => rcases start with rfl | rfl <;> simp [Event.isWrite]

theorem refusal_of_closing {last : Workspace} {verdict : Verdict} {value : Except Stop Finished}
    (close : Closing c fetched last s verdict events value) :
    match verdict with
    | .failure error => value = .error (.error error)
    | .outcome outcome =>
        value = match events.findSome? Event.refusal? with
          | some error => .error (.error error)
          | none => .ok (.reconciled outcome) := by
  have fine {writes : List Event} {w : Workspace} (kept : StatusKept fetched last writes w) :
      writes.findSome? Event.refusal? = none := by
    cases kept <;> simp_all [Event.refusal?]
  -- An update of the status that finds the resource gone is no refusal, so what comes after it decides.
  cases close with
  | @refused verdict error _ lasting => cases verdict <;> simp [Verdict.error, Event.refusal?, lasting]
  | failed => rfl
  | finished kept _ => simp [fine kept]
  | unlabelled kept _ => simp [fine kept, Event.refusal?]
  | labelled kept _ => simp [fine kept, Event.refusal?]
  | cutOff => rfl

theorem error_of_broken {subroutine : String} {error : Error}
    (broken : Broken c now fetched turnouts subroutine error w) :
    ∀ o ∈ turnouts, ∀ failure, o.result = some (.error failure) → failure = error := by
  obtain ⟨past, o, todo, outcome, rfl, progress, turns, _, result, _⟩ := broken
  intro other member failure bad
  rcases List.mem_append.mp member with earlier | last
  · have fine := progress.clean other earlier
    simp [Turnout.failed, bad] at fine
  · obtain rfl := List.mem_singleton.mp last
    cases result.symm.trans bad
    rfl

theorem resolves_of_broken {subroutine : String} {error : Error} {closing : List Event}
    (broken : Broken c now fetched turnouts subroutine error w) (writes : ∀ event ∈ closing, event.isWrite = true) :
    Resolves c now fetched turnouts closing (.error (.error error)) := by
  obtain ⟨o, member, failed⟩ := broken.failed
  refine ⟨writes, fun other among failure bad => ?_, fun clean => ?_⟩
  · rw [error_of_broken broken other among failure bad]
  · simp [clean o member] at failed

theorem resolves_of_progress {outcome : Outcome} {closing : List Event} {value : Except Stop Finished}
    (progress : Progress c now fetched turnouts w [] outcome) (writes : ∀ event ∈ closing, event.isWrite = true)
    (success : value = (match closing.findSome? Event.refusal? with
      | some error => .error (.error error)
      | none => .ok (.reconciled outcome)) ∨
      value = .error .beyondCalendar ∧ closing = [] ∧ schedules c fetched.phase outcome = true ∧
        ∃ minutes, now.addSeconds? (Spread.delay minutes).seconds = none) :
    Resolves c now fetched turnouts closing value := by
  refine ⟨writes, fun o member error bad => ?_, fun _ => progress.asked ▸ success⟩
  have fine := progress.clean o member
  simp [Turnout.failed, bad] at fine

theorem resolves_of_account {closing : List Event} {value : Except Stop Finished}
    (uncancelled : ∀ state, c.world.cancelled state = false)
    (account : Account c now fetched turnouts s closing value) :
    Resolves c now fetched turnouts closing value := by
  cases account with
  | cancelled stopped => simp [uncancelled] at stopped
  | dropped broken => exact resolves_of_broken broken (by simp)
  | beyond progress due drawn =>
      have past : ∃ minutes, now.addSeconds? (Spread.delay minutes).seconds = none :=
        ⟨_, Option.map_eq_none_iff.mp drawn⟩
      exact resolves_of_progress progress (by simp) (.inr ⟨rfl, rfl, due, past⟩)
  | closed closes close =>
      have refusal := refusal_of_closing close
      have writes := writes_closing close
      cases closes with
      | broken broken =>
          obtain rfl : value = _ := refusal
          exact resolves_of_broken broken writes
      | whole progress _ | scheduled progress _ _ => exact resolves_of_progress progress writes (.inl refusal)

theorem spares_of_account {closing : List Event} {value : Except Stop Finished}
    (uncancelled : ∀ state, c.world.cancelled state = false) (account : Account c now fetched turnouts s closing value)
    (others : ∀ o ∈ turnouts, fetched.phase.conditionType o.sub.name ≠ type) (unready : Condition.ready ≠ type) :
    Spares type (fetched.conditions.find? type) (turnouts.flatMap (·.calls) ++ closing) := by
  rw [spares_append]
  cases account with
  | cancelled stopped => simp [uncancelled] at stopped
  | dropped broken =>
      obtain ⟨past, o, todo, outcome, rfl, progress, turns, _⟩ := broken
      exact ⟨(spares_sweeps others unready (progress.chain.turn progress.clean turns)).1, trivial⟩
  | beyond progress _ _ => exact ⟨(spares_sweeps others unready progress.chain).1, trivial⟩
  | closed closes close =>
      obtain ⟨spares, last⟩ := spares_closes closes others unready
      rw [last]
      exact ⟨spares, spares_closing close⟩

theorem recounts_of_account {id : ResourceId} {t : List (Moment σ)} {closing : List Event}
    {value : Except Stop Finished} (uncancelled : ∀ state, c.world.cancelled state = false)
    (account : Account c now fetched turnouts s closing value) (made : calls t = begun id fetched turnouts ++ closing) :
    Recounts c id now fetched t turnouts closing ∧
      ((∀ o ∈ turnouts, o.failed = false) → turnouts.map (·.sub) = c.manager.subroutines) := by
  have apart {subroutine : String} {error : Error} {w : Workspace}
      (broken : Broken c now fetched turnouts subroutine error w) : ¬∀ o ∈ turnouts, o.failed = false := by
    intro clean
    obtain ⟨o, member, failed⟩ := broken.failed
    simp [clean o member] at failed
  have whole {outcome : Outcome} {w : Workspace} (progress : Progress c now fetched turnouts w [] outcome) :
      turnouts.map (·.sub) = c.manager.subroutines := by
    simpa using progress.order.symm
  cases account with
  | cancelled stopped => simp [uncancelled] at stopped
  | dropped broken => exact ⟨broken.recounts made, fun clean => absurd clean (apart broken)⟩
  | beyond progress _ _ => exact ⟨progress.recounts made, fun _ => whole progress⟩
  | closed closes close =>
      refine ⟨closes.recounts made, fun clean => ?_⟩
      cases closes with
      | broken broken => exact absurd clean (apart broken)
      | whole progress _ | scheduled progress _ _ => exact whole progress

theorem step?_of_stores {event : Event} (write : event.stores = true) : event.step? = none := by
  cases event <;> simp_all [Event.stores, Event.step?]

theorem step?_of_isWrite {event : Event} (write : event.isWrite = true) : event.step? = none := by
  cases event <;> simp_all [Event.isWrite, Event.step?]

theorem step_of_once {result : Option (Except Error Outcome)} {subroutine : String} {taken : Phase}
    (once : Once phase sub own result) {event : Event} (member : event ∈ own)
    (step : event.step? = some (subroutine, taken)) : subroutine = sub.name ∧ taken = phase := by
  cases once with
  | passed => simp at member
  | unregistered =>
      obtain rfl := List.mem_singleton.mp member
      simp [Event.step?] at step
  | @stepped before after _ _ stored =>
      rcases List.mem_append.mp member with early | late
      · simp [step?_of_stores (stored event (by simp [early]))] at step
      · rcases List.mem_cons.mp late with rfl | after
        · cases step
          exact ⟨rfl, rfl⟩
        · simp [step?_of_stores (stored event (by simp [after]))] at step
  | unreleased =>
      simp only [List.mem_cons, List.not_mem_nil, or_false] at member
      rcases member with rfl | rfl
      · cases step
        exact ⟨rfl, rfl⟩
      · simp [Event.step?] at step

end

section

variable {m : Manager σ} {world : World σ} {id : ResourceId} {s : σ} {read : Moment σ} {w : Workspace}

/-- The turns come in the order of the manager and stop with the first that fails; each takes the step of its
subroutine once, if it is called for. The failure is the result; without one, it is the first refusal of a write after
the turns, or else all that the turns have asked for. -/
theorem sweep_in_order (statusOnly : m.StepsKeep fun w => (w.metadata, w.spec))
    (uncancelled : ∀ state, world.cancelled state = false) (found : Finds id (m.attempt world id s).trace read w)
    (due : ∀ outcome, (m.attempt world id s).value ≠ .ok (.skipped outcome)) :
    ∃ turnouts closing,
      Recounts (m.cycle world id (world.correlate s).1) id (world.now read.after) w (m.attempt world id s).trace
        turnouts closing ∧
      Orderly m w turnouts ∧
      Resolves (m.cycle world id (world.correlate s).1) (world.now read.after) w turnouts closing
        (m.attempt world id s).value ∧
      ∀ sub ∈ m.subroutines, sub ∉ turnouts.map (·.sub) →
        Untouched w.phase w sub (calls (m.attempt world id s).trace) := by
  obtain ⟨turnouts, closing, account, made⟩ := Manager.attempt_accounts found due
  obtain ⟨recounts, whole⟩ := recounts_of_account uncancelled account made
  have steady : m.StepsKeep Workspace.metadata := fun sub member phase w s answer s' ends =>
    congrArg Prod.fst (statusOnly sub member phase w s answer s' ends)
  obtain ⟨left, sweeps⟩ := recounts.swept
  have orderly := orderly_of_sweeps steady recounts.order whole sweeps
  have resolves := resolves_of_account uncancelled account
  refine ⟨turnouts, closing, recounts, orderly, resolves, fun sub member untaken => ?_⟩
  have others : ∀ o ∈ turnouts, o.sub.name ≠ sub.name := by
    intro o among same
    have taken := List.mem_map_of_mem (f := (·.sub)) among
    rw [m.eq_of_name (recounts.order.subset taken) member same] at taken
    exact untaken taken
  rw [recounts.made]
  refine ⟨fun event among phase step => ?_, ?_⟩
  -- The read is no step, a step is in the turn of its own subroutine, and after the turns there are writes only.
  · rcases List.mem_append.mp among with turn | close
    · rcases List.mem_cons.mp turn with rfl | turn
      · simp [Event.step?] at step
      · obtain ⟨o, taken, called⟩ := List.mem_flatMap.mp turn
        exact others o taken (step_of_once (orderly.once o taken) called step).1.symm
    · simp [step?_of_isWrite (resolves.writes event close)] at step
  · have apart : ∀ o ∈ turnouts, w.phase.conditionType o.sub.name ≠ w.phase.conditionType sub.name :=
      fun o taken same => others o taken (Phase.conditionType_inj same)
    exact ⟨by rintro _ ⟨⟩, spares_of_account uncancelled account apart (Phase.conditionType_ne_ready _ _).symm⟩

end

section

open Reconciler.Shelf

def outage : OperatorError :=
  .retryable (.text "backend unavailable")

def stall (w : Workspace) (_ : Shelf site) : StepAnswer :=
  { workspace := w, result := .error outage }

def wreckers : Manager (Shelf site) where
  operator := "converge"
  controller := "workspaces"
  subroutines := [worker "dns" ["dns"] leave leave, worker "quota" ["quota"] leave leave,
    worker "volume" ["volume"] leave stall, worker "mail" ["mail"] leave leave]
  faultless := by decide

def condemned : Workspace :=
  Edit.apply (.condemn .epoch) (web.setFinalizers ["dns", "volume", "mail"])

def wrecked : Ran (Shelf site) (Except Stop Finished) :=
  wreckers.attempt (Shelf.world site) site (stocked condemned [] .epoch)

-- Of four subroutines the first cleans up, the second has no token on the workspace, the third fails.
theorem sweep_in_order_wrecked :
    wrecked.value = .error (.error (.subroutine "volume" outage)) ∧
      ∃ turnouts closing,
        Recounts (wreckers.cycle (Shelf.world site) site "") site .epoch (condemned.setResourceVersion (some "1"))
          wrecked.trace turnouts closing ∧
        Orderly wreckers (condemned.setResourceVersion (some "1")) turnouts ∧
        Resolves (wreckers.cycle (Shelf.world site) site "") .epoch (condemned.setResourceVersion (some "1")) turnouts
          closing wrecked.value ∧
        ∀ sub ∈ wreckers.subroutines, sub ∉ turnouts.map (·.sub) →
          Untouched .finalize (condemned.setResourceVersion (some "1")) sub (calls wrecked.trace) := by
  have value : wrecked.value = .error (.error (.subroutine "volume" outage)) := by decide +kernel
  have steady : wreckers.StepsKeep fun w => (w.metadata, w.spec) := by
    intro sub member phase w s answer s' ends
    simp only [wreckers, List.mem_cons, List.not_mem_nil, or_false] at member
    rcases member with rfl | rfl | rfl | rfl <;> obtain ⟨_, same | same⟩ := answer_of_worker ends <;> cases same <;>
      rfl
  have found : Finds site wrecked.trace (wrecked.trace.get ⟨1, by decide +kernel⟩)
      (condemned.setResourceVersion (some "1")) := finds_get (by decide +kernel)
  have due : ∀ outcome, wrecked.value ≠ .ok (.skipped outcome) := by simp [value]
  exact ⟨value, sweep_in_order steady (fun _ => rfl) found due⟩

end

end SweepOrder

end Reconciler
