import Reconciler.Proofs.FinalizerProtocol
import Reconciler.Proofs.Registration
import Reconciler.Proofs.StatusWrite

set_option autoImplicit false

namespace Reconciler

open Reconcile

variable {σ : Type}

namespace Ownership

def frame (w : Workspace) : Metadata × Workspace.Spec :=
  ({ w.metadata with finalizers := none, labels := none, resourceVersion := none }, w.spec)

def written (events : List Event) : Bool :=
  events.foldl (fun written event => match event with
    | .updated .. => true
    | .fetched .. | .stepped .. => false
    | _ => written) false

-- The turns that have begun: each has had its step, but the last may only have come to the write of its tokens.
def begunTurns (events : List Event) : Nat :=
  (events.filterMap Event.step?).length + if written events then 1 else 0

def reached (m : Manager σ) (events : List Event) : List (Subroutine σ) :=
  m.subroutines.take (begunTurns events)

def released (m : Manager σ) (events : List Event) (token : Finalizer.Token) : Bool :=
  m.subroutines.any fun sub => events.any (·.cleans sub.name) && sub.finalizers.contains token

def due (m : Manager σ) (fetched : Workspace) (events : List Event) : List Finalizer.Token :=
  if fetched.isBeingDeleted then fetched.finalizers.filter fun token => !released m events token
  else fetched.finalizers ++ Finalizer.missing ((reached m events).flatMap (·.finalizers)) fetched.finalizers

structure Owned (m : Manager σ) (fetched : Workspace) (past : List Event) (event : Event) (given : Workspace) :
    Prop where
  frame : frame given = frame fetched
  version : StatusWrite.current past = some given.metadata.resourceVersion
  finalizers : given.finalizers = due m fetched (past ++ [event])

structure Relabels (m : Manager σ) (fetched : Workspace) (event : Event) (given : Workspace) : Prop where
  update : ∃ answer, event = .updated given answer
  spread : m.spread = true
  live : fetched.isBeingDeleted = false
  marked : Spread.hasRefreshMarker fetched = true
  labels : given.metadata.labels = some (fetched.labels.erase Spread.refreshLabel)

def Writes (m : Manager σ) (fetched : Workspace) (past : List Event) (event : Event) : Prop :=
  event.isWrite = true → ∀ given, event.given? = some given → Owned m fetched past event given ∧
    (given.metadata.labels = fetched.metadata.labels ∨ Relabels m fetched event given)

def Strips (fetched : Workspace) (event : Event) : Prop :=
  ∃ given answer, event = .updated given answer ∧ given.metadata.labels ≠ fetched.metadata.labels

def Over : Stage σ → Prop
  | .ended _ => True
  | .reporting _ next => Over next
  | _ => False

def Decided (answer : Option (Except Error Workspace)) : Stage σ → Prop
  | .ended result => ((∃ stored, answer = some (.ok stored)) ∧ ∃ finished, result = .ok finished) ∨
      ∃ error, answer.getD (.error .cancelled) = .error error ∧ result = .error (.error error)
  | .reporting _ next => Decided answer next
  | _ => False

theorem Decided.over {answer : Option (Except Error Workspace)} {stage : Stage σ} (decided : Decided answer stage) :
    Over stage := by
  induction stage with
  | ended => trivial
  | reporting _ _ ih => exact ih decided
  | _ => exact decided.elim

section

variable {c : Cycle σ} {id : ResourceId} {now : Timestamp} {fetched : Workspace} {start s s' : σ}
variable {t piece : List (Moment σ)} {moment : Moment σ} {w w' found left given : Workspace} {stage next : Stage σ}
variable {events own writes : List Event} {event : Event} {sub : Subroutine σ} {todo : List (Subroutine σ)}
variable {outcome : Outcome} {turnouts : List (Turnout σ)} {tokens present : List Finalizer.Token}

theorem finalizers_registered {phase : Phase} :
    ((entered c phase now sub found).register sub.finalizers).1.finalizers =
      found.finalizers ++ Finalizer.missing sub.finalizers found.finalizers := by
  have entry : (entered c phase now sub found).finalizers = found.finalizers := Registration.finalizers_entered
  exact entry ▸ Finalizer.register_eq sub.finalizers _

theorem finalizers_turns {result : Option (Except Error Outcome)} (steady : c.manager.StepsKeep Workspace.metadata)
    (member : sub ∈ c.manager.subroutines) (live : found.isBeingDeleted = false)
    (turns : Turns c .process now sub found own result left) :
    left.finalizers = found.finalizers ++ Finalizer.missing sub.finalizers found.finalizers := by
  cases turns with
  | passed skipped => simp [Sweep.isSkipped] at skipped
  | taken _ taken =>
      rw [SweepOrder.finalizers_of_metadata (SweepOrder.metadata_concluded _), ← finalizers_registered]
      cases taken with
      | processed _ persisted ends =>
          exact (SweepOrder.finalizers_of_metadata (steady sub member .process _ _ _ _ ends)).trans
            (SweepOrder.finalizers_persisted persisted)
      | finalized deleted _ _ => simp [live] at deleted
  | unregistered => exact finalizers_registered
  | unreleased _ deleted _ _ => simp [live] at deleted

theorem finalizers_first : (first c now fetched).finalizers = fetched.finalizers :=
  SweepOrder.finalizers_of_metadata (Cycle.metadata_amend ..)

theorem finalizers_sweeps_live (steady : c.manager.StepsKeep Workspace.metadata)
    (among : ∀ o ∈ turnouts, o.sub ∈ c.manager.subroutines) (live : fetched.isBeingDeleted = false)
    (sweeps : Sweeps c .process now (first c now fetched) turnouts w) :
    w.finalizers = fetched.finalizers ++
      Finalizer.missing ((turnouts.map (·.sub)).flatMap (·.finalizers)) fetched.finalizers := by
  induction sweeps with
  | start => simpa [Finalizer.missing] using finalizers_first
  | @turn turnouts o before _ turns ih =>
      have among' : ∀ o ∈ turnouts, o.sub ∈ c.manager.subroutines := fun o member => among o (by simp [member])
      have found := (SweepOrder.isBeingDeleted_sweeps steady among' before).trans live
      rw [finalizers_turns steady (among o (by simp)) found turns, ih among', List.map_append, List.flatMap_append,
        Finalizer.missing_append]
      simp

theorem finalizers_releaseIfIdle (tokens : List Finalizer.Token) (result : Except OperatorError Outcome)
    (w : Workspace) :
    (w.releaseIfIdle tokens result).1.finalizers =
      w.finalizers.filter fun token => !(result.toOption.any (·.isDone) && tokens.contains token) := by
  rw [Workspace.finalizers_releaseIfIdle]
  rcases result with failure | outcome
  · simp [Finalizer.releaseIfIdle, Except.toOption]
  · by_cases done : outcome.isDone = true <;> simp [Finalizer.releaseIfIdle, Except.toOption, done]

theorem cleaned_of_turns {result : Option (Except Error Outcome)} (steady : c.manager.StepsKeep Workspace.metadata)
    (member : sub ∈ c.manager.subroutines) (deleted : found.isBeingDeleted = true)
    (turns : Turns c .finalize now sub found own result left) :
    own = [] ∧ left = found ∨
      ∃ given answer writes, own = .stepped sub.name .finalize given (some answer) :: writes ∧
        (∀ event ∈ writes, ∃ given answer, event = .updated given answer) ∧
        left.finalizers = found.finalizers.filter fun token =>
          !(answer.result.toOption.any (·.isDone) && sub.finalizers.contains token) := by
  have step {answer : StepAnswer} {s s' : σ}
      (ends : (sub.finalize (entered c .finalize now sub found) s).Ends (some answer) s') :
      answer.workspace.finalizers = found.finalizers :=
    (SweepOrder.finalizers_of_metadata (steady sub member .finalize _ _ _ _ ends)).trans
      Registration.finalizers_entered
  cases turns with
  | passed => exact .inl ⟨rfl, rfl⟩
  | taken _ taken =>
      cases taken with
      | processed live _ _ => simp [live] at deleted
      | @finalized _ answer _ _ _ _ ends persisted =>
          refine .inr ⟨_, answer, _, rfl, fun event among => ?_, ?_⟩
          · cases persisted with
            | spared => simp at among
            | written => exact ⟨_, _, List.mem_singleton.mp among⟩
          · rw [SweepOrder.finalizers_of_metadata (SweepOrder.metadata_concluded _),
              SweepOrder.finalizers_persisted persisted, finalizers_releaseIfIdle, step ends]
  | unregistered _ live _ => simp [live] at deleted
  | @unreleased _ answer _ _ _ _ ends _ =>
      refine .inr ⟨_, answer, _, rfl, by simp, ?_⟩
      rw [finalizers_releaseIfIdle, step ends]

theorem released_snoc_of_not {m : Manager σ} (other : event.step? = none) :
    released m (events ++ [event]) = released m events := by
  have still (sub : Subroutine σ) : event.cleans sub.name = false := by
    cases event <;> simp_all [Event.step?, Event.cleans]
  funext token
  simp [released, still]

theorem released_append_of_writes {m : Manager σ} (writes? : ∀ event ∈ writes, event.step? = none) :
    released m (events ++ writes) = released m events := by
  induction writes generalizing events with
  | nil => simp
  | cons first rest ih =>
      rw [List.append_cons, ih fun event member => writes? event (by simp [member]),
        released_snoc_of_not (writes? first (by simp))]

theorem released_snoc_of_step {m : Manager σ} {given : Workspace} {answer : StepAnswer} (member : sub ∈ m.subroutines)
    (token : Finalizer.Token) :
    released m (events ++ [.stepped sub.name .finalize given (some answer)]) token =
      (released m events token ||
        (answer.result.toOption.any (·.isDone) && sub.finalizers.contains token)) := by
  have only (other : Subroutine σ) :
      (Event.stepped sub.name .finalize given (some answer)).cleans other.name =
        (sub.name = other.name && answer.result.toOption.any (·.isDone)) := by
    rcases result : answer.result with failure | outcome <;> simp [Event.cleans, Except.toOption, result]
  -- A step tells the name of its subroutine only; no other has that name.
  have own : (∃ other ∈ m.subroutines, (sub.name = other.name ∧ answer.result.toOption.any (·.isDone) = true) ∧
      token ∈ other.finalizers) ↔ answer.result.toOption.any (·.isDone) = true ∧ token ∈ sub.finalizers := by
    constructor
    · rintro ⟨other, among, ⟨same, done⟩, owned⟩
      exact ⟨done, m.eq_of_name member among same ▸ owned⟩
    · rintro ⟨done, owned⟩
      exact ⟨sub, member, ⟨rfl, done⟩, owned⟩
  rw [Bool.eq_iff_iff]
  simp only [released, List.any_append, List.any_cons, List.any_nil, only, Bool.or_false, List.any_eq_true,
    Bool.and_eq_true, Bool.or_eq_true, decide_eq_true_eq, List.contains_eq_mem, or_and_right, exists_or, and_or_left]
  rw [← own]

theorem due_of_deleted (m : Manager σ) (deleted : fetched.isBeingDeleted = true) (events : List Event) :
    due m fetched events = fetched.finalizers.filter fun token => !released m events token := by
  simp [due, deleted]

theorem due_of_live (m : Manager σ) (live : fetched.isBeingDeleted = false) (events : List Event) :
    due m fetched events = fetched.finalizers ++
      Finalizer.missing ((reached m events).flatMap (·.finalizers)) fetched.finalizers := by
  simp [due, live]

theorem due_append_of_writes (m : Manager σ) (deleted : fetched.isBeingDeleted = true)
    (writes? : ∀ event ∈ writes, event.step? = none) : due m fetched (events ++ writes) = due m fetched events := by
  rw [due_of_deleted m deleted, due_of_deleted m deleted, released_append_of_writes writes?]

theorem due_snoc_of_step {m : Manager σ} {given : Workspace} {answer : StepAnswer}
    (deleted : fetched.isBeingDeleted = true) (member : sub ∈ m.subroutines) :
    due m fetched (events ++ [.stepped sub.name .finalize given (some answer)]) =
      (due m fetched events).filter fun token =>
        !(answer.result.toOption.any (·.isDone) && sub.finalizers.contains token) := by
  rw [due_of_deleted m deleted, due_of_deleted m deleted, List.filter_filter]
  refine List.filter_congr fun token _ => ?_
  rw [released_snoc_of_step member, Bool.not_or, Bool.and_comm]

theorem finalizers_sweeps_deleted (steady : c.manager.StepsKeep Workspace.metadata)
    (among : ∀ o ∈ turnouts, o.sub ∈ c.manager.subroutines) (deleted : fetched.isBeingDeleted = true)
    (sweeps : Sweeps c .finalize now (first c now fetched) turnouts w) :
    w.finalizers = due c.manager fetched (begun id fetched turnouts) := by
  induction sweeps with
  | start =>
      rw [due_of_deleted _ deleted, finalizers_first]
      exact (List.filter_eq_self.mpr fun token _ => by simp [released, begun, Event.cleans]).symm
  | @turn turnouts o before _ turns ih =>
      have among' : ∀ o ∈ turnouts, o.sub ∈ c.manager.subroutines := fun o member => among o (by simp [member])
      have found := (SweepOrder.isBeingDeleted_sweeps steady among' before).trans deleted
      rw [begun_snoc]
      rcases cleaned_of_turns steady (among o (by simp)) found turns with
        ⟨nothing, same⟩ | ⟨given, answer, writes, own, updates, left⟩
      · rw [nothing, same, List.append_nil]
        exact ih among'
      · have idle : ∀ event ∈ writes, event.step? = none := fun event member => by
          obtain ⟨_, _, rfl⟩ := updates event member
          rfl
        rw [own, List.append_cons, due_append_of_writes _ deleted idle,
          due_snoc_of_step deleted (among o (by simp)), left, ih among']

theorem written_snoc_of_separates (events : List Event) (last : event.separates = true) :
    written (events ++ [event]) = false := by
  cases event <;> simp_all [written, Event.separates]

theorem begunTurns_updated (events : List Event) (given : Workspace) (answer : Option (Except Error Workspace)) :
    begunTurns (events ++ [.updated given answer]) = (events.filterMap Event.step?).length + 1 := by
  simp [begunTurns, written, Event.step?]

theorem begunTurns_statusUpdated (events : List Event) (given : Workspace)
    (answer : Option (Except Error Workspace)) :
    begunTurns (events ++ [.statusUpdated given answer]) = begunTurns events := by
  have same : written (events ++ [.statusUpdated given answer]) = written events := by simp [written]
  simp [begunTurns, same, Event.step?, List.filterMap_cons]

theorem begunTurns_of_separates (last : event.separates = true) (ends : events.getLast? = some event) :
    begunTurns events = (events.filterMap Event.step?).length := by
  obtain ⟨front, rfl⟩ := List.getLast?_eq_some_iff.mp ends
  simp [begunTurns, written_snoc_of_separates front last]

theorem begunTurns_sweeps (steady : c.manager.StepsKeep Workspace.metadata)
    (among : ∀ o ∈ turnouts, o.sub ∈ c.manager.subroutines) (live : fetched.isBeingDeleted = false)
    (sweeps : Sweeps c .process now (first c now fetched) turnouts w) :
    begunTurns (begun id fetched turnouts) = turnouts.length := by
  cases sweeps with
  | start => simp [begun, begunTurns, written, Event.step?]
  | @turn turnouts o before clean turns =>
      have among' : ∀ o ∈ turnouts, o.sub ∈ c.manager.subroutines := fun o member => among o (by simp [member])
      have found := (SweepOrder.isBeingDeleted_sweeps steady among' before).trans live
      have count := (Registration.abreast_sweeps id steady among' live before clean).2
      -- The turns before the last were clean and had their steps; the last may have come to its write only.
      rw [begun_snoc, List.length_append, List.length_singleton, ← count]
      generalize o.calls = own at turns
      generalize o.result = result at turns
      generalize o.left = left at turns
      cases turns with
      | passed skipped => simp [Sweep.isSkipped] at skipped
      | taken _ taken =>
          cases taken with
          | processed _ persisted _ =>
              rw [← List.append_assoc, begunTurns_of_separates rfl List.getLast?_concat]
              simp [Registration.steps_persisted persisted, Event.step?]
          | finalized deleted _ _ => simp [found] at deleted
      | unregistered => exact begunTurns_updated ..
      | unreleased _ deleted _ _ => simp [found] at deleted

theorem reached_eq {m : Manager σ} (order : turnouts.map (·.sub) <+: m.subroutines)
    (count : begunTurns events = turnouts.length) : reached m events = turnouts.map (·.sub) := by
  have length : turnouts.length = (turnouts.map (·.sub)).length := by simp
  rw [reached, count, length]
  exact (List.prefix_iff_eq_take.mp order).symm

theorem blind_frame (steady : c.manager.StepsKeep fun w => (w.metadata, w.spec)) :
    Blind c fun w => (frame w, w.metadata.labels) where
  steps sub member phase w s answer s' ends := by
    obtain ⟨metadata, spec⟩ := Prod.ext_iff.mp (steady sub member phase w s answer s' ends)
    dsimp only at metadata spec
    simp [frame, metadata, spec]
  conditions _ _ := rfl
  finalizers _ _ := rfl
  version _ _ := rfl

theorem metadata_of_steady {m : Manager σ} (steady : m.StepsKeep fun w => (w.metadata, w.spec)) :
    m.StepsKeep Workspace.metadata :=
  fun sub member phase w s answer s' ends => congrArg Prod.fst (steady sub member phase w s answer s' ends)

structure Kept (c : Cycle σ) (id : ResourceId) (fetched : Workspace) (turnouts : List (Turnout σ)) (w : Workspace) :
    Prop where
  order : turnouts.map (·.sub) <+: c.manager.subroutines
  view : (frame w, w.metadata.labels) = (frame fetched, fetched.metadata.labels)
  version : StatusWrite.current (begun id fetched turnouts) = some w.metadata.resourceVersion
  deleted : w.isBeingDeleted = fetched.isBeingDeleted
  registered : fetched.isBeingDeleted = false → begunTurns (begun id fetched turnouts) = turnouts.length ∧
    w.finalizers = fetched.finalizers ++
      Finalizer.missing ((turnouts.map (·.sub)).flatMap (·.finalizers)) fetched.finalizers
  released : fetched.isBeingDeleted = true → w.finalizers = due c.manager fetched (begun id fetched turnouts)

variable (id) in
theorem kept_of_sweeps (steady : c.manager.StepsKeep fun w => (w.metadata, w.spec))
    (order : turnouts.map (·.sub) <+: c.manager.subroutines)
    (sweeps : Sweeps c fetched.phase now (first c now fetched) turnouts w) : Kept c id fetched turnouts w := by
  have among : ∀ o ∈ turnouts, o.sub ∈ c.manager.subroutines :=
    fun o member => order.subset (List.mem_map_of_mem member)
  have metadata := metadata_of_steady steady
  refine ⟨order, (blind_frame steady).sweeps among sweeps, StatusWrite.current_sweeps metadata among sweeps,
    SweepOrder.isBeingDeleted_sweeps metadata among sweeps, fun live => ?_, fun deleted => ?_⟩
  · have phase : fetched.phase = .process := by simp [Workspace.phase, live]
    rw [phase] at sweeps
    exact ⟨begunTurns_sweeps metadata among live sweeps, finalizers_sweeps_live metadata among live sweeps⟩
  · have phase : fetched.phase = .finalize := by simp [Workspace.phase, deleted]
    rw [phase] at sweeps
    exact finalizers_sweeps_deleted metadata among deleted sweeps

variable (id) in
theorem Kept.of_progress (steady : c.manager.StepsKeep fun w => (w.metadata, w.spec))
    (progress : Progress c now fetched turnouts w todo outcome) : Kept c id fetched turnouts w :=
  kept_of_sweeps id steady ⟨todo, progress.order.symm⟩ progress.chain

variable (id) in
theorem Kept.of_closes {verdict : Verdict} (steady : c.manager.StepsKeep fun w => (w.metadata, w.spec))
    (closes : Closes c now fetched turnouts verdict w) : Kept c id fetched turnouts w := by
  obtain ⟨left, sweeps, order, metadata, spec⟩ := closes.swept
  obtain ⟨_, view, version, deleted, registered, released⟩ := kept_of_sweeps id steady order sweeps
  have tokens := SweepOrder.finalizers_of_metadata metadata
  refine ⟨order, ?_, metadata ▸ version, ?_, tokens ▸ registered, tokens ▸ released⟩
  · simpa [frame, metadata, spec] using view
  · simpa [Workspace.isBeingDeleted, metadata] using deleted

theorem Kept.stated (kept : Kept c id fetched turnouts w) (given : Workspace)
    (answer : Option (Except Error Workspace)) :
    w.finalizers = due c.manager fetched (begun id fetched turnouts ++ [.statusUpdated given answer]) := by
  rcases deleted : fetched.isBeingDeleted with _ | _
  · obtain ⟨count, registered⟩ := kept.registered deleted
    rw [due_of_live _ deleted, reached_eq kept.order ((begunTurns_statusUpdated ..).trans count)]
    exact registered
  · rw [due_append_of_writes _ deleted (by simp [Event.step?])]
    exact kept.released deleted

theorem owned_of_view {m : Manager σ} (view : (frame w, w.metadata.labels) = (frame fetched, fetched.metadata.labels))
    (version : StatusWrite.current events = some w.metadata.resourceVersion)
    (finalizers : w.finalizers = due m fetched (events ++ [event])) :
    Owned m fetched events event w ∧ w.metadata.labels = fetched.metadata.labels :=
  ⟨⟨congrArg Prod.fst view, version, finalizers⟩, congrArg Prod.snd view⟩

variable (steady : c.manager.StepsKeep fun w => (w.metadata, w.spec))

include steady

theorem owned_of_persisting {verdict : Verdict} (course : Course c id now fetched start t (.persisting verdict) w s)
    (answer : Option (Except Error Workspace)) :
    Owned c.manager fetched (calls t) (.statusUpdated w answer) w ∧ w.metadata.labels = fetched.metadata.labels := by
  obtain ⟨turnouts, closes, made⟩ := course.accounts
  have kept := Kept.of_closes id steady closes
  rw [made]
  exact owned_of_view kept.view kept.version (kept.stated w answer)

theorem owned_of_registering (course : Course c id now fetched start t (.writing (.register sub todo outcome)) w s)
    (answer : Option (Except Error Workspace)) :
    Owned c.manager fetched (calls t) (.updated w answer) w ∧ w.metadata.labels = fetched.metadata.labels := by
  obtain ⟨turnouts, found, own, progress, _, made, rfl, live, changed⟩ := course.accounts
  obtain rfl := congrArg Prod.fst changed
  have kept := Kept.of_progress id steady progress
  have fresh := kept.deleted.symm.trans live
  have blind := blind_frame steady
  have steps := (Registration.abreast_progress id (metadata_of_steady steady) fresh progress).2
  have reached (given : Workspace) : reached c.manager (begun id fetched turnouts ++ [.updated given answer]) =
      turnouts.map (·.sub) ++ [sub] := by
    have whole : turnouts.map (·.sub) ++ [sub] <+: c.manager.subroutines := ⟨todo, by simp [progress.order]⟩
    rw [reached, begunTurns_updated, steps]
    simpa using (List.prefix_iff_eq_take.mp whole).symm
  rw [made, List.append_nil]
  refine owned_of_view ?_ (kept.version.trans (congrArg some StatusWrite.version_entered.symm)) ?_
  · exact ((blind.finalizers _ _).trans (blind.amend _ _)).trans kept.view
  · rw [due_of_live _ fresh, reached, List.flatMap_append, Finalizer.missing_append, finalizers_registered,
      (kept.registered fresh).2]
    simp

theorem owned_of_releasing {result : Except OperatorError Outcome}
    (course : Course c id now fetched start t (.writing (.release sub todo outcome result)) w s)
    (answer : Option (Except Error Workspace)) :
    Owned c.manager fetched (calls t) (.updated w answer) w ∧ w.metadata.labels = fetched.metadata.labels := by
  obtain ⟨turnouts, found, own, progress, _, made, step, ⟨deleted, rfl, _, _, ends⟩, rfl, changed⟩ := course.accounts
  obtain rfl := congrArg Prod.fst changed
  have kept := Kept.of_progress id steady progress
  have condemned := kept.deleted.symm.trans deleted
  have member : sub ∈ c.manager.subroutines := course.mem_of_agenda List.mem_cons_self
  have metadata := metadata_of_steady steady
  have same : step.workspace.metadata.resourceVersion = found.metadata.resourceVersion :=
    (congrArg (·.resourceVersion) (metadata sub member .finalize _ _ _ _ ends)).trans StatusWrite.version_entered
  have tokens : step.workspace.finalizers = found.finalizers :=
    (SweepOrder.finalizers_of_metadata (metadata sub member .finalize _ _ _ _ ends)).trans
      Registration.finalizers_entered
  rw [made]
  refine owned_of_view (((blind_frame steady).released member ends).trans kept.view) ?_ ?_
  · rw [StatusWrite.current_snoc_of_none rfl, kept.version, StatusWrite.version_released, same]
  · rw [due_append_of_writes _ condemned (by simp [Event.step?]), due_snoc_of_step condemned member,
      finalizers_releaseIfIdle, tokens, kept.released condemned]

omit steady in
theorem Kept.version_status {last kept : Workspace} (before : Kept c id fetched turnouts last)
    (status : StatusKept fetched last writes kept) :
    StatusWrite.current (begun id fetched turnouts ++ writes) = some kept.metadata.resourceVersion := by
  cases status with
  | same => rw [List.append_nil, before.version]
  | stored => simp [StatusWrite.current, Event.obtained?, Workspace.adoptVersion, Workspace.setResourceVersion]
  | gone => rw [StatusWrite.current_snoc_of_none rfl, before.version]

theorem owned_of_unlabelling (course : Course c id now fetched start t (.writing (.unlabel outcome)) w s)
    (answer : Option (Except Error Workspace)) :
    Owned c.manager fetched (calls t) (.updated w answer) w ∧
      Relabels c.manager fetched (.updated w answer) w := by
  obtain ⟨turnouts, last, writes, left, closes, status, marked, rfl, made⟩ := course.accounts
  have kept := Kept.of_closes id steady closes
  obtain ⟨_, progress⟩ := closes.progress
  have same : (frame left, left.metadata.labels) = (frame last, last.metadata.labels) ∧
      left.finalizers = last.finalizers ∧ writes.filterMap Event.step? = [] := by
    cases status <;> exact ⟨rfl, rfl, rfl⟩
  obtain ⟨view, tokens, idle⟩ := same
  obtain ⟨frame, labels⟩ := Prod.ext_iff.mp (view.trans kept.view)
  obtain ⟨⟨spread, phase⟩, marker⟩ : (c.manager.spread = true ∧ fetched.phase = .process) ∧
      Spread.hasRefreshMarker left = true := by simpa [unlabels] using marked
  have live : fetched.isBeingDeleted = false := by
    by_contra deleted
    simp [Workspace.phase, deleted] at phase
  have alike : left.labels = fetched.labels := congrArg (·.getD .empty) labels
  have steps := (Registration.abreast_progress id (metadata_of_steady steady) live progress).2
  have all (given : Workspace) :
      reached c.manager (begun id fetched turnouts ++ writes ++ [.updated given answer]) = turnouts.map (·.sub) := by
    rw [reached, begunTurns_updated, List.filterMap_append, idle, List.append_nil, steps, progress.order,
      List.append_nil]
    exact List.take_of_length_le (by simp)
  rw [made]
  have version := kept.version_status status
  refine ⟨⟨frame, version, ?_⟩, ⟨⟨_, rfl⟩, spread, live, ?_, ?_⟩⟩
  · rw [due_of_live _ live, all]
    exact tokens.trans (kept.registered live).2
  · rwa [Spread.hasRefreshMarker, ← alike]
  · exact congrArg (fun labels : Labels => some (labels.erase Spread.refreshLabel)) alike

theorem writes_of_writing {purpose : Purpose σ} (course : Course c id now fetched start t (.writing purpose) w s)
    (answer : Option (Except Error Workspace)) : Writes c.manager fetched (calls t) (.updated w answer) := by
  rintro _ _ ⟨⟩
  cases purpose with
  | register => exact (owned_of_registering steady course answer).imp_right .inl
  | release => exact (owned_of_releasing steady course answer).imp_right .inl
  | unlabel => exact (owned_of_unlabelling steady course answer).imp_right .inr

omit steady in
theorem isCall_of_isWrite (write : event.isWrite = true) : event.isCall = true := by
  cases event <;> simp_all [Event.isWrite, Event.isCall]

theorem writes_of_course (course : Course c id now fetched start t stage w s) :
    Throughout (fun past moment => Writes c.manager fetched (calls past) moment.event) t := by
  refine course.throughout ?_ ?_ ?_ (fun course => writes_of_writing steady course _) ?_
  · exact fun past moment quiet write => absurd (isCall_of_isWrite write) (by simp [quiet])
  · intro t w s answer s' _ write
    simp [Event.isWrite] at write
  · intro t phase sub todo outcome w s answer s' _ write
    simp [Event.isWrite] at write
  · rintro t verdict w s answer s' course _ _ ⟨⟩
    exact (owned_of_persisting steady course answer).imp_right .inl

omit steady in
theorem found_of_writing (course : Course c id now fetched start t stage w s) :
    Throughout (fun past moment => moment.event.isWrite = true → ∃ read, Finds id past read fetched) t := by
  refine course.throughout ?_ ?_ ?_ (fun course _ => ?_) (fun course _ => ?_)
  · exact fun past moment quiet write => absurd (isCall_of_isWrite write) (by simp [quiet])
  · intro t w s answer s' _ write
    simp [Event.isWrite] at write
  · intro t phase sub todo outcome w s answer s' _ write
    simp [Event.isWrite] at write
  all_goals
    obtain ⟨⟨read, found, _⟩, _⟩ := course.outset
    exact ⟨read, found⟩

theorem over_of_stripping {purpose : Purpose σ} {answer : Option (Except Error Workspace)}
    (course : Course c id now fetched start t (.writing purpose) w s) (strips : Strips fetched (.updated w answer)) :
    ∃ outcome, purpose = .unlabel outcome := by
  obtain ⟨_, _, ⟨⟩, other⟩ := strips
  cases purpose with
  | register => exact absurd (owned_of_registering steady course answer).2 other
  | release => exact absurd (owned_of_releasing steady course answer).2 other
  | unlabel outcome => exact ⟨outcome, rfl⟩

omit steady in
theorem unstripped_of_ne (other : ∀ given answer, event ≠ .updated given answer) : ¬Strips fetched event := by
  rintro ⟨given, answer, same, _⟩
  exact other given answer same

theorem decided_of_course (answer : Option (Except Error Workspace))
    (course : Course c id now fetched start t stage w s) :
    Since (fun _ event => Strips fetched event ∧ ∃ given, event = .updated given answer)
      (fun rest _ _ stage => rest = [] ∧ Decided answer stage) t w s stage := by
  have fresh (event : Event) (other : ∀ given answer, event ≠ .updated given answer) {stage : Stage σ}
      (marked : Strips fetched event ∧ ∃ given, event = .updated given answer) :
      ([] : List Event) = [] ∧ Decided answer stage :=
    absurd marked.1 (unstripped_of_ne other)
  have quiet (event : Event) (other : ∀ given answer, event ≠ .updated given answer) :
      ¬(Strips fetched event ∧ ∃ given, event = .updated given answer) :=
    fun marked => unstripped_of_ne other marked.1
  induction course with
  | start => exact fun past moment rest split => by simp at split
  | note _ _ ih => exact ih.quiet rfl (quiet _ (by simp))
  | unread _ asked _ ih => exact ih.asked (fun _ ended => ended.2) asked (fresh _ (by simp))
  | absent _ asked ih => exact ih.asked (fun _ ended => ended.2) asked (fresh _ (by simp))
  | skip _ asked _ _ ih => exact ih.asked (fun _ ended => ended.2) asked (fresh _ (by simp))
  | fetch _ asked _ _ ih => exact ih.asked (fun _ ended => ended.2) asked (fresh _ (by simp))
  | step _ asked ih => exact ih.asked (fun _ ended => ended.2) asked (fresh _ (by simp))
  | drop _ asked ih => exact ih.asked (fun _ ended => ended.2) asked (fresh _ (by simp))
  | written course asked ih =>
      refine ih.asked (fun _ ended => ended.2) asked ?_
      rintro ⟨strips, _, ⟨⟩⟩
      obtain ⟨outcome, rfl⟩ := over_of_stripping steady course strips
      exact ⟨rfl, .inl ⟨⟨_, rfl⟩, _, rfl⟩⟩
  | unwritten course asked answered ih =>
      refine ih.asked (fun _ ended => ended.2) asked ?_
      rintro ⟨strips, _, ⟨⟩⟩
      obtain ⟨outcome, rfl⟩ := over_of_stripping steady course strips
      exact ⟨rfl, .inr ⟨_, answered, rfl⟩⟩
  | fail _ ih => exact (ih.quiet rfl (quiet _ (by simp))).onward fun _ ended => ended.2.elim
  | report _ _ ih => exact (ih.quiet rfl (quiet _ (by simp))).onward fun _ ended => ended
  | conceal _ _ ih => exact ih.onward fun _ ended => ended
  | persist _ _ asked ih => exact ih.asked (fun _ ended => ended.2) asked (fresh _ (by simp))
  | vanish _ _ asked _ _ ih => exact ih.asked (fun _ ended => ended.2) asked (fresh _ (by simp))
  | refuse _ _ asked _ _ ih => exact ih.asked (fun _ ended => ended.2) asked (fresh _ (by simp))
  | stop _ _ ih | pass _ _ _ ih | enter _ _ _ ih | condemned _ _ ih => exact ih.onward fun _ ended => ended.2.elim
  | equipped _ _ _ ih | register _ _ _ ih | keep _ _ ih | release _ _ ih => exact ih.onward fun _ ended => ended.2.elim
  | complete _ ih | abort _ ih | conclude _ _ ih | schedule _ _ _ ih => exact ih.onward fun _ ended => ended.2.elim
  | beyond _ _ _ ih | unchanged _ _ ih | finish _ _ ih | unlabel _ _ ih => exact ih.onward fun _ ended => ended.2.elim

theorem last_of_course (course : Course c id now fetched start t stage w s) :
    Since (fun _ => Strips fetched) (fun rest _ _ stage => rest = [] ∧ Over stage) t w s stage := by
  rintro past moment rest split ⟨given, answer, update, other⟩
  obtain ⟨last, decided⟩ :=
    decided_of_course steady answer course past moment rest split ⟨⟨given, answer, update, other⟩, given, update⟩
  exact ⟨last, decided.over⟩

end

theorem hasRefreshMarker_of_erased {w : Workspace} {labels : Labels}
    (erased : w.metadata.labels = some (labels.erase Spread.refreshLabel)) : Spread.hasRefreshMarker w = false := by
  simp [Spread.hasRefreshMarker, Workspace.labels, erased, Labels.contains, Labels.erase]

theorem hasRefreshMarker_eq {w w' : Workspace} (same : w.metadata.labels = w'.metadata.labels) :
    Spread.hasRefreshMarker w = Spread.hasRefreshMarker w' :=
  congrArg (fun labels : Option Labels => (labels.getD .empty).contains Spread.refreshLabel) same

section

variable {m : Manager σ} {world : World σ} {id : ResourceId} {s : σ} {fetched : Workspace} {read : Moment σ}

theorem unskipped_of_marked (found : Finds id (m.attempt world id s).trace read fetched)
    (marked : Spread.hasRefreshMarker fetched = true) (outcome : Outcome) :
    (m.attempt world id s).value ≠ .ok (.skipped outcome) := by
  intro skip
  obtain ⟨_, skipped, _⟩ := Manager.attempt_finds found
  simpa [skips, Spread.shouldSkip, marked] using skipped.mp ⟨outcome, skip⟩

theorem unmarked_of_attempt (steady : m.StepsKeep fun w => (w.metadata, w.spec)) (spread : m.spread = true)
    (found : Finds id (m.attempt world id s).trace read fetched) (live : fetched.isBeingDeleted = false)
    (marked : Spread.hasRefreshMarker fetched = true) {finished : Finished}
    (ended : (m.attempt world id s).value = .ok finished) :
    ∃ front given stored, calls (m.attempt world id s).trace = front ++ [.updated given (some (.ok stored))] ∧
      Spread.hasRefreshMarker given = false := by
  obtain ⟨turnouts, closing, account, made⟩ := Manager.attempt_accounts found (unskipped_of_marked found marked)
  rw [ended] at account
  cases account with
  | @closed _ last _ _ closes close =>
      have kept := Kept.of_closes id steady closes
      have labels := congrArg Prod.snd kept.view
      cases close with
      | @finished _ _ left status unmarked =>
          have still : Spread.hasRefreshMarker left = Spread.hasRefreshMarker fetched := by
            cases status <;> exact hasRefreshMarker_eq labels
          simp [unlabels, spread, Workspace.phase, live, still, marked] at unmarked
      | @unlabelled _ writes left stored status _ =>
          refine ⟨begun id fetched turnouts ++ writes, (Spread.clearRefreshMarker left).1, stored, ?_, ?_⟩
          · rw [made, List.append_assoc]
          · exact hasRefreshMarker_of_erased rfl

theorem unmarked_of_last (steady : m.StepsKeep fun w => (w.metadata, w.spec)) (spread : m.spread = true)
    (found : Finds id (m.reconcile world id s).trace read fetched) (live : fetched.isBeingDeleted = false)
    (marked : Spread.hasRefreshMarker fetched = true) {outcome : Outcome}
    (value : (m.reconcile world id s).value = .ok outcome) {past rest : List (Moment σ)} {moment : Moment σ}
    (split : (m.reconcile world id s).trace = past ++ moment :: rest) {given : Workspace}
    {answer : Option (Except Error Workspace)} (update : moment.event = .updated given answer)
    (last : ∀ later ∈ rest, ∀ given answer, later.event ≠ .updated given answer) :
    Spread.hasRefreshMarker given = false := by
  obtain ⟨finished, ended⟩ : ∃ finished, (m.attempt world id s).value = .ok finished := by
    rw [m.value_reconcile world id s] at value
    rcases ended : (m.attempt world id s).value with stop | finished
    · simp [ended, Except.map] at value
    · exact ⟨finished, rfl⟩
  obtain ⟨front, other, stored, made, unmarked⟩ :=
    unmarked_of_attempt steady spread (finds_reconcile.mp found) live marked ended
  rw [← calls_reconcile, split, calls_split (by rw [update]; rfl)] at made
  rcases split_snoc made.symm with ⟨_, this⟩ | ⟨middle, front⟩
  · obtain ⟨rfl, _⟩ := Event.updated.inj (update.symm.trans this)
    exact unmarked
  · have late : .updated other (some (.ok stored)) ∈ calls rest := by
      rw [front, List.append_assoc, List.cons_append] at made
      rw [(List.cons.inj (List.append_cancel_left made)).2]
      simp
    obtain ⟨⟨later, among, event⟩, _⟩ := mem_calls.mp late
    exact absurd event (last later among other _)

theorem prefix_due (m : Manager σ) (live : fetched.isBeingDeleted = false) (events : List Event) :
    fetched.finalizers <+: due m fetched events := by
  rw [due_of_live m live]
  exact List.prefix_append ..

theorem due_sublist (m : Manager σ) (deleted : fetched.isBeingDeleted = true) (events : List Event) :
    (due m fetched events).Sublist fetched.finalizers := by
  rw [due_of_deleted m deleted]
  exact List.filter_sublist

/-- What a reconcile writes is what it has fetched, but for what it owns. -/
theorem writes_owned (world : World σ) (id : ResourceId) (s : σ)
    (steady : m.StepsKeep fun w => (w.metadata, w.spec)) :
    let ran := m.reconcile world id s
    (∀ past moment rest, ran.trace = past ++ moment :: rest → moment.event.isWrite = true →
      ∀ given, moment.event.given? = some given → ∃ read fetched, Finds id past read fetched ∧
        Owned m fetched (calls past) moment.event given ∧
        (fetched.isBeingDeleted = false → fetched.finalizers <+: given.finalizers) ∧
        (fetched.isBeingDeleted = true → given.finalizers.Sublist fetched.finalizers) ∧
        (given.metadata.labels = fetched.metadata.labels ∨
          Relabels m fetched moment.event given ∧ calls rest = [])) ∧
    ∀ read fetched, Finds id ran.trace read fetched → m.spread = true → fetched.isBeingDeleted = false →
      ∀ outcome, ran.value = .ok outcome → ∀ past moment rest, ran.trace = past ++ moment :: rest →
        ∀ given answer, moment.event = .updated given answer →
          (∀ later ∈ rest, ∀ given answer, later.event ≠ .updated given answer) →
            Spread.hasRefreshMarker given = false := by
  intro ran
  obtain ⟨now, fetched, left, course⟩ := m.attempt_course world id s
  have whole {past moment rest} (split : ran.trace = past ++ moment :: rest) (write : moment.event.isWrite = true) :
      ∃ back, (m.attempt world id s).trace = past ++ moment :: back ∧ calls rest = calls back ∧
        Writes m fetched (calls past) moment.event := by
    obtain ⟨back, there, same⟩ := attempt_split split (isCall_of_isWrite write)
    exact ⟨back, there, same, writes_of_course steady course past moment back there⟩
  constructor
  · intro past moment rest split write given gave
    obtain ⟨back, there, same, writes⟩ := whole split write
    obtain ⟨read, found⟩ := found_of_writing course past moment back there write
    obtain ⟨owned, labels⟩ := writes write given gave
    refine ⟨read, fetched, found, owned, fun live => ?_, fun deleted => ?_, ?_⟩
    · exact owned.finalizers ▸ prefix_due m live _
    · exact owned.finalizers ▸ due_sublist m deleted _
    · by_cases kept : given.metadata.labels = fetched.metadata.labels
      · exact .inl kept
      · have relabels := labels.resolve_left kept
        obtain ⟨answer, update⟩ := relabels.update
        have last := last_of_course steady course past moment back there ⟨given, answer, update, kept⟩
        exact .inr ⟨relabels, same.trans last.1⟩
  · intro read found finds spread live outcome value past moment rest split given answer update last
    obtain ⟨rfl, _⟩ := course.found_eq (finds_reconcile.mp finds)
    obtain ⟨back, there, same, writes⟩ := whole split (by rw [update]; rfl)
    rcases (writes (by rw [update]; rfl) given (by rw [update]; rfl)).2 with kept | relabels
    · rcases marked : Spread.hasRefreshMarker fetched
      · exact (hasRefreshMarker_eq kept).trans marked
      · exact unmarked_of_last steady spread finds live marked value split update last
    · exact hasRefreshMarker_of_erased relabels.labels

end

section

open Reconciler.Shelf

def spreader : Manager (Shelf site) where
  operator := "converge"
  controller := "workspaces"
  subroutines := [worker "dns" ["dns"] leave leave, worker "mail" ["dns", "mail"] leave leave]
  conditions := true
  spread := true
  faultless := by decide

def labelled : Workspace :=
  web.setLabels ⟨[(Spread.refreshLabel, "true"), ("team", "a")], by decide⟩

def spreading : Ran (Shelf site) (Except Stop Outcome) :=
  spreader.reconcile (Shelf.world site) site (stocked labelled [] .epoch)

theorem writes_owned_spreading :
    spreading.value = .ok .done ∧
      (calls spreading.trace).filterMap (fun event => match event with
        | .updated given _ => some (given.finalizers, Spread.hasRefreshMarker given)
        | _ => none) = [(["dns"], true), (["dns", "mail"], true), (["dns", "mail"], false)] ∧
      (∀ past moment rest, spreading.trace = past ++ moment :: rest → moment.event.isWrite = true →
        ∀ given, moment.event.given? = some given → ∃ read fetched, Finds site past read fetched ∧
          Owned spreader fetched (calls past) moment.event given ∧
          (fetched.isBeingDeleted = false → fetched.finalizers <+: given.finalizers) ∧
          (fetched.isBeingDeleted = true → given.finalizers.Sublist fetched.finalizers) ∧
          (given.metadata.labels = fetched.metadata.labels ∨
            Relabels spreader fetched moment.event given ∧ calls rest = [])) ∧
      ∀ past moment rest, spreading.trace = past ++ moment :: rest → ∀ given answer,
        moment.event = .updated given answer →
          (∀ later ∈ rest, ∀ given answer, later.event ≠ .updated given answer) →
            Spread.hasRefreshMarker given = false := by
  have steady : spreader.StepsKeep fun w => (w.metadata, w.spec) := by
    intro sub member phase w s answer s' ends
    simp only [spreader, List.mem_cons, List.not_mem_nil, or_false] at member
    rcases member with rfl | rfl <;> obtain ⟨_, same | same⟩ := answer_of_worker ends <;> cases same <;> rfl
  have found : Finds site spreading.trace (spreading.trace.get ⟨1, by decide +kernel⟩)
      (labelled.setResourceVersion (some "1")) := finds_get (by decide +kernel)
  have value : spreading.value = .ok .done := by decide +kernel
  obtain ⟨writes, last⟩ := writes_owned (Shelf.world site) site (stocked labelled [] .epoch) steady
  exact ⟨value, by decide +kernel, writes, last _ _ found rfl (by decide) .done value⟩

end

end Ownership

end Reconciler
