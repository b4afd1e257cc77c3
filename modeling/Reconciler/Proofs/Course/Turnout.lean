import Reconciler.Proofs.Course.Outset

set_option autoImplicit false

namespace Reconciler

open Reconcile

variable {σ : Type}

def calls (t : List (Moment σ)) : List Event :=
  (t.map (·.event)).filter Event.isCall

-- How the turn of a subroutine came out: what it found, which calls it made, how it ended, and what it left.
structure Turnout (σ : Type) where
  sub : Subroutine σ
  found : Workspace
  calls : List Event
  result : Option (Except Error Outcome)
  left : Workspace

namespace Turnout

def failed (o : Turnout σ) : Bool :=
  match o.result with
  | some (.error _) => true
  | _ => false

def join (outcome : Outcome) (o : Turnout σ) : Outcome :=
  match o.result with
  | some (.ok result) => outcome.merge result
  | _ => outcome

end Turnout

def merged (turnouts : List (Turnout σ)) : Outcome :=
  turnouts.foldl Turnout.join .done

def entered (c : Cycle σ) (phase : Phase) (now : Timestamp) (sub : Subroutine σ) (found : Workspace) : Workspace :=
  c.amend (Ledger.processing now sub.name phase) found

def concluded (c : Cycle σ) (phase : Phase) (now : Timestamp) (sub : Subroutine σ)
    (result : Except OperatorError Outcome) (w : Workspace) : Workspace :=
  match result with
  | .ok outcome => if outcome.isDone then c.amend (Ledger.complete now sub.name phase) w else w
  | .error _ => w

inductive Persisted (changed : Workspace × Bool) : List Event → Workspace → Prop where
  | spared : changed.2 = false → Persisted changed [] changed.1
  | written {stored : Workspace} :
      changed.2 = true →
      Persisted changed [.updated changed.1 (some (.ok stored))] (changed.1.adoptVersion stored)

inductive Taken (c : Cycle σ) (phase : Phase) (now : Timestamp) (sub : Subroutine σ) (found : Workspace) :
    List Event → Except OperatorError Outcome → Workspace → Prop where
  | processed {writes given s answer s'} :
      found.isBeingDeleted = false →
      Persisted ((entered c phase now sub found).register sub.finalizers) writes given →
      (sub.process given s).Ends (some answer) s' →
      Taken c phase now sub found (writes ++ [.stepped sub.name .process given (some answer)]) answer.result
        answer.workspace
  | finalized {s answer s' writes left} :
      found.isBeingDeleted = true →
      (sub.finalize (entered c phase now sub found) s).Ends (some answer) s' →
      Persisted (answer.workspace.releaseIfIdle sub.finalizers answer.result) writes left →
      Taken c phase now sub found
        (.stepped sub.name .finalize (entered c phase now sub found) (some answer) :: writes) answer.result left

inductive Turns (c : Cycle σ) (phase : Phase) (now : Timestamp) (sub : Subroutine σ) (found : Workspace) :
    List Event → Option (Except Error Outcome) → Workspace → Prop where
  | passed : Sweep.isSkipped phase sub found = true → Turns c phase now sub found [] none found
  | taken {own result w} :
      Sweep.isSkipped phase sub found = false →
      Taken c phase now sub found own result w →
      Turns c phase now sub found own (some (result.mapError (.subroutine sub.name)))
        (concluded c phase now sub result w)
  | unregistered {error} :
      Sweep.isSkipped phase sub found = false → found.isBeingDeleted = false →
      ((entered c phase now sub found).register sub.finalizers).2 = true →
      Turns c phase now sub found
        [.updated ((entered c phase now sub found).register sub.finalizers).1 (some (.error error))]
        (some (.error error)) ((entered c phase now sub found).register sub.finalizers).1
  | unreleased {s answer s' error} :
      Sweep.isSkipped phase sub found = false → found.isBeingDeleted = true →
      (sub.finalize (entered c phase now sub found) s).Ends (some answer) s' →
      (answer.workspace.releaseIfIdle sub.finalizers answer.result).2 = true →
      Turns c phase now sub found
        [.stepped sub.name .finalize (entered c phase now sub found) (some answer),
          .updated (answer.workspace.releaseIfIdle sub.finalizers answer.result).1 (some (.error error))]
        (some (.error error)) (answer.workspace.releaseIfIdle sub.finalizers answer.result).1

inductive Sweeps (c : Cycle σ) (phase : Phase) (now : Timestamp) (first : Workspace) :
    List (Turnout σ) → Workspace → Prop where
  | start : Sweeps c phase now first [] first
  | turn {turnouts o} :
      Sweeps c phase now first turnouts o.found →
      (∀ earlier ∈ turnouts, earlier.failed = false) →
      Turns c phase now o.sub o.found o.calls o.result o.left →
      Sweeps c phase now first (turnouts ++ [o]) o.left

def first (c : Cycle σ) (now : Timestamp) (fetched : Workspace) : Workspace :=
  c.amend (Ledger.setUnknownIfAbsent now) fetched

structure Progress (c : Cycle σ) (now : Timestamp) (fetched : Workspace) (turnouts : List (Turnout σ)) (w : Workspace)
    (todo : List (Subroutine σ)) (outcome : Outcome) : Prop where
  chain : Sweeps c fetched.phase now (first c now fetched) turnouts w
  clean : ∀ o ∈ turnouts, o.failed = false
  order : c.manager.subroutines = turnouts.map (·.sub) ++ todo
  asked : outcome = merged turnouts

def Broken (c : Cycle σ) (now : Timestamp) (fetched : Workspace) (turnouts : List (Turnout σ)) (subroutine : String)
    (error : Error) (w : Workspace) : Prop :=
  ∃ past o todo outcome, turnouts = past ++ [o] ∧ Progress c now fetched past o.found (o.sub :: todo) outcome ∧
    Turns c fetched.phase now o.sub o.found o.calls o.result o.left ∧
    o.sub.name = subroutine ∧ o.result = some (.error error) ∧ o.left = w

inductive Closes (c : Cycle σ) (now : Timestamp) (fetched : Workspace) (turnouts : List (Turnout σ)) :
    Verdict → Workspace → Prop where
  | broken {subroutine error w} :
      Broken c now fetched turnouts subroutine error w →
      Closes c now fetched turnouts (.failure error)
        (c.amend (Ledger.setReadyError now error.failureMessage)
          (c.amend (Ledger.failed now subroutine fetched.phase error.failureMessage) w))
  | whole {outcome w} :
      Progress c now fetched turnouts w [] outcome → schedules c fetched.phase outcome = false →
      Closes c now fetched turnouts (.outcome outcome)
        (c.amend (Ledger.setReady now (if outcome.isDone then .true else .false)) w)
  | scheduled {outcome w minutes scheduled} :
      Progress c now fetched turnouts w [] outcome → schedules c fetched.phase outcome = true →
      Spread.scheduleNext? w now minutes = some scheduled →
      Closes c now fetched turnouts (.outcome outcome) (c.amend (Ledger.setReady now .true) scheduled)

inductive StatusKept (fetched last : Workspace) : List Event → Workspace → Prop where
  | same : last.currentStatus = fetched.currentStatus → StatusKept fetched last [] last
  | stored {stored} :
      last.currentStatus ≠ fetched.currentStatus →
      StatusKept fetched last [.statusUpdated last (some (.ok stored))] (last.adoptVersion stored)
  | gone {error} :
      last.currentStatus ≠ fetched.currentStatus → Vanished last error →
      StatusKept fetched last [.statusUpdated last (some (.error error))] last

-- How a reconcile whose turns are over came to its end, in this state, with the calls that it had left to make.
inductive Closing (c : Cycle σ) (fetched last : Workspace) (s : σ) :
    Verdict → List Event → Except Stop Finished → Prop where
  | refused {verdict error} :
      last.currentStatus ≠ fetched.currentStatus → ¬Vanished last error →
      Closing c fetched last s verdict [.statusUpdated last (some (.error error))]
        (.error (.error (verdict.error error)))
  | failed {error writes w} :
      StatusKept fetched last writes w →
      Closing c fetched last s (.failure error) writes (.error (.error error))
  | finished {outcome writes w} :
      StatusKept fetched last writes w → unlabels c fetched.phase w = false →
      Closing c fetched last s (.outcome outcome) writes (.ok (.reconciled outcome))
  | unlabelled {outcome writes w stored} :
      StatusKept fetched last writes w → unlabels c fetched.phase w = true →
      Closing c fetched last s (.outcome outcome)
        (writes ++ [.updated (Spread.clearRefreshMarker w).1 (some (.ok stored))]) (.ok (.reconciled outcome))
  | labelled {outcome writes w error} :
      StatusKept fetched last writes w → unlabels c fetched.phase w = true →
      Closing c fetched last s (.outcome outcome)
        (writes ++ [.updated (Spread.clearRefreshMarker w).1 (some (.error error))]) (.error (.error error))
  | cutOff {error writes} :
      c.world.cancelled s = true → last.currentStatus ≠ fetched.currentStatus →
      writes = [] ∨ writes = [.statusUpdated last none] →
      Closing c fetched last s (.failure error) writes (.error (.error error))

inductive Account (c : Cycle σ) (now : Timestamp) (fetched : Workspace) (turnouts : List (Turnout σ)) (s : σ) :
    List Event → Except Stop Finished → Prop where
  | cancelled {closing} :
      c.world.cancelled s = true →
      Account c now fetched turnouts s closing (.error (.error .cancelled))
  -- The store says so itself.
  | dropped {subroutine w} :
      Broken c now fetched turnouts subroutine .cancelled w →
      Account c now fetched turnouts s [] (.error (.error .cancelled))
  | beyond {w outcome minutes} :
      Progress c now fetched turnouts w [] outcome → schedules c fetched.phase outcome = true →
      Spread.scheduleNext? w now minutes = none →
      Account c now fetched turnouts s [] (.error .beyondCalendar)
  | closed {verdict last closing result} :
      Closes c now fetched turnouts verdict last → Closing c fetched last s verdict closing result →
      Account c now fetched turnouts s closing result

def begun (id : ResourceId) (fetched : Workspace) (turnouts : List (Turnout σ)) : List Event :=
  .fetched id (some (.ok (some fetched))) :: turnouts.flatMap (·.calls)

structure Recounts (c : Cycle σ) (id : ResourceId) (now : Timestamp) (fetched : Workspace) (t : List (Moment σ))
    (turnouts : List (Turnout σ)) (closing : List Event) : Prop where
  made : calls t = begun id fetched turnouts ++ closing
  swept : ∃ left, Sweeps c fetched.phase now (first c now fetched) turnouts left
  order : turnouts.map (·.sub) <+: c.manager.subroutines

def Midway (c : Cycle σ) (id : ResourceId) (now : Timestamp) (fetched : Workspace) (done : List Event)
    (sub : Subroutine σ) (todo : List (Subroutine σ)) (outcome : Outcome)
    (inside : Workspace → List Event → Prop) : Prop :=
  ∃ turnouts found own, Progress c now fetched turnouts found (sub :: todo) outcome ∧
    Sweep.isSkipped fetched.phase sub found = false ∧ done = begun id fetched turnouts ++ own ∧ inside found own

def Cleaned (c : Cycle σ) (phase : Phase) (now : Timestamp) (sub : Subroutine σ) (found : Workspace)
    (answer : StepAnswer) (own : List Event) : Prop :=
  found.isBeingDeleted = true ∧ own = [.stepped sub.name .finalize (entered c phase now sub found) (some answer)] ∧
    ∃ s s', (sub.finalize (entered c phase now sub found) s).Ends (some answer) s'

def Accounts (c : Cycle σ) (id : ResourceId) (now : Timestamp) (fetched : Workspace) (done : List Event)
    (w : Workspace) (s : σ) : Stage σ → Prop
  | .opening => done = []
  | .sweeping todo outcome =>
      ∃ turnouts, Progress c now fetched turnouts w todo outcome ∧ done = begun id fetched turnouts
  | .turning sub todo outcome =>
      Midway c id now fetched done sub todo outcome fun found own =>
        own = [] ∧ w = entered c fetched.phase now sub found
  | .writing (.register sub todo outcome) =>
      Midway c id now fetched done sub todo outcome fun found own =>
        own = [] ∧ found.isBeingDeleted = false ∧
          ((entered c fetched.phase now sub found).register sub.finalizers) = (w, true)
  | .stepping .process sub todo outcome =>
      Midway c id now fetched done sub todo outcome fun found own =>
        found.isBeingDeleted = false ∧
          Persisted ((entered c fetched.phase now sub found).register sub.finalizers) own w
  | .stepping .finalize sub todo outcome =>
      Midway c id now fetched done sub todo outcome fun found own =>
        found.isBeingDeleted = true ∧ own = [] ∧ w = entered c fetched.phase now sub found
  | .cleaned sub todo outcome result =>
      Midway c id now fetched done sub todo outcome fun found own =>
        ∃ answer, Cleaned c fetched.phase now sub found answer own ∧ w = answer.workspace ∧ result = answer.result
  | .writing (.release sub todo outcome result) =>
      Midway c id now fetched done sub todo outcome fun found own =>
        ∃ answer, Cleaned c fetched.phase now sub found answer own ∧ result = answer.result ∧
          answer.workspace.releaseIfIdle sub.finalizers answer.result = (w, true)
  | .settled sub todo outcome result =>
      Midway c id now fetched done sub todo outcome fun found own =>
        Taken c fetched.phase now sub found own result w
  | .failed subroutine error =>
      ∃ turnouts, Broken c now fetched turnouts subroutine error w ∧ done = begun id fetched turnouts
  -- Who hears of the error may change the state; of a cancellation nobody hears.
  | .reporting error next => ∀ s', (error.shouldReport = true ∨ s' = s) → Accounts c id now fetched done w s' next
  | .persisting verdict =>
      ∃ turnouts, Closes c now fetched turnouts verdict w ∧ done = begun id fetched turnouts
  | .unlabelling outcome =>
      ∃ turnouts last writes, Closes c now fetched turnouts (.outcome outcome) last ∧
        StatusKept fetched last writes w ∧ done = begun id fetched turnouts ++ writes
  | .writing (.unlabel outcome) =>
      ∃ turnouts last writes kept, Closes c now fetched turnouts (.outcome outcome) last ∧
        StatusKept fetched last writes kept ∧ unlabels c fetched.phase kept = true ∧
        w = (Spread.clearRefreshMarker kept).1 ∧ done = begun id fetched turnouts ++ writes
  | .ended (.ok .notFound) | .ended (.ok (.skipped _)) => True
  | .ended result =>
      (∀ found, .fetched id (some (.ok (some found))) ∉ done) ∨
        ∃ turnouts closing, Account c now fetched turnouts s closing result ∧
          done = begun id fetched turnouts ++ closing

section

variable {c : Cycle σ} {id : ResourceId} {now : Timestamp} {fetched : Workspace} {start s s' : σ}
variable {t piece : List (Moment σ)} {w : Workspace} {stage : Stage σ} {done : List Event}

theorem mem_calls {event : Event} :
    event ∈ calls t ↔ (∃ moment ∈ t, moment.event = event) ∧ event.isCall = true := by
  simp [calls]

theorem calls_split {past rest : List (Moment σ)} {moment : Moment σ} (call : moment.event.isCall = true) :
    calls (past ++ moment :: rest) = calls past ++ moment.event :: calls rest := by
  simp [calls, call]

theorem moment_of_calls {front back : List Event} {event : Event} (split : calls t = front ++ event :: back) :
    ∃ past moment rest, t = past ++ moment :: rest ∧ moment.event = event ∧ calls past = front ∧ calls rest = back := by
  obtain ⟨before, after, events, rfl, rfl⟩ := split_filter split
  obtain ⟨past, later, rfl, rfl, there⟩ := List.map_eq_append_iff.mp events
  obtain ⟨moment, rest, rfl, rfl, rfl⟩ := List.map_eq_cons_iff.mp there
  exact ⟨past, moment, rest, rfl, rfl, rfl, rfl⟩

theorem calls_snoc_of_not {moment : Moment σ} (quiet : moment.event.isCall = false) :
    calls (t ++ [moment]) = calls t := by
  simp [calls, quiet]

theorem calls_answered {α : Type} {stop : σ → Bool} {call : σ → Call σ α} {event : Option α → Event} {value : α}
    (asked : Run.Asked stop call event s (some value) piece s') (call? : (event (some value)).isCall = true) :
    calls (t ++ piece) = calls t ++ [event (some value)] := by
  obtain ⟨rfl, _⟩ := asked.answered
  simp [calls, call?]

theorem Call.stopped_of_finishUnless {α : Type} {stop : σ → Bool} {call : Call σ α} {last : σ}
    (given : call.finishUnless stop = (none, last)) : stop last = true := by
  induction call with
  | done => simp at given
  | waits state rest ih =>
      simp only [Call.finishUnless] at given
      split at given
      · cases given
        assumption
      · exact ih given

theorem Run.Asked.stopped {α : Type} {stop : σ → Bool} {call : σ → Call σ α} {event : Option α → Event}
    (asked : Run.Asked stop call event s none piece s') : stop s' = true := by
  cases asked with
  | unasked stopped => exact stopped
  | asked _ given => exact Call.stopped_of_finishUnless given

theorem calls_cut {α : Type} {stop : σ → Bool} {call : σ → Call σ α} {event : Option α → Event}
    (asked : Run.Asked stop call event s none piece s') (call? : (event none).isCall = true) :
    stop s' = true ∧ ∃ more, (more = [] ∨ more = [event none]) ∧ calls (t ++ piece) = calls t ++ more := by
  refine ⟨asked.stopped, ?_⟩
  rcases asked.ends with ⟨_, rfl, _⟩ | ⟨rfl, _⟩
  · exact ⟨[], .inl rfl, by simp⟩
  · exact ⟨[event none], .inr rfl, by simp [calls, call?]⟩

theorem begun_snoc (turnouts : List (Turnout σ)) (o : Turnout σ) :
    begun id fetched (turnouts ++ [o]) = begun id fetched turnouts ++ o.calls := by
  simp [begun]

theorem merged_snoc (turnouts : List (Turnout σ)) (o : Turnout σ) :
    merged (turnouts ++ [o]) = o.join (merged turnouts) := by
  simp [merged]

theorem isDone_merged {turnouts : List (Turnout σ)} :
    (merged turnouts).isDone = true ↔
      ∀ o ∈ turnouts, ∀ outcome, o.result = some (.ok outcome) → outcome.isDone = true := by
  induction turnouts using List.reverseRecOn with
  | nil => simp [merged]
  | append_singleton turnouts o ih =>
      rw [merged_snoc, Turnout.join]
      rcases result : o.result with _ | _ | outcome <;> simp_all [Outcome.isDone_merge, or_imp, forall_and]

theorem progress_first : Progress c now fetched [] (first c now fetched) c.manager.subroutines .done :=
  ⟨.start, by simp, by simp, rfl⟩

theorem Progress.turn {turnouts : List (Turnout σ)} {o : Turnout σ} {todo : List (Subroutine σ)} {outcome : Outcome}
    (before : Progress c now fetched turnouts o.found (o.sub :: todo) outcome)
    (turned : Turns c fetched.phase now o.sub o.found o.calls o.result o.left) (fine : o.failed = false) :
    Progress c now fetched (turnouts ++ [o]) o.left todo (o.join outcome) := by
  refine ⟨before.chain.turn before.clean turned, fun other member => ?_, by simp [before.order], ?_⟩
  · rcases List.mem_append.mp member with earlier | last
    · exact before.clean other earlier
    · obtain rfl := List.mem_singleton.mp last
      exact fine
  · rw [merged_snoc, before.asked]

theorem Sweeps.split {phase : Phase} {w w' : Workspace} {turnouts past rest : List (Turnout σ)} {o : Turnout σ}
    (sweeps : Sweeps c phase now w turnouts w') (split : turnouts = past ++ o :: rest) :
    Sweeps c phase now w past o.found ∧ (∀ earlier ∈ past, earlier.failed = false) ∧
      Turns c phase now o.sub o.found o.calls o.result o.left ∧ (o.failed = true → rest = []) := by
  induction sweeps generalizing rest with
  | start => simp at split
  | @turn turnouts last before clean turns ih =>
      rcases rest.eq_nil_or_concat with rfl | ⟨front, other, rfl⟩
      · obtain ⟨rfl, same⟩ := List.append_inj' split rfl
        cases same
        exact ⟨before, clean, turns, fun _ => rfl⟩
      · have shorter : turnouts ++ [last] = (past ++ o :: front) ++ [other] := by simpa using split
        obtain ⟨rfl, _⟩ := List.append_inj' shorter rfl
        obtain ⟨there, earlier, turned, _⟩ := ih rfl
        exact ⟨there, earlier, turned, fun failed => by simp [clean o (by simp)] at failed⟩

theorem Sweeps.turns {phase : Phase} {w w' : Workspace} {turnouts : List (Turnout σ)} {o : Turnout σ}
    (sweeps : Sweeps c phase now w turnouts w') (member : o ∈ turnouts) :
    Turns c phase now o.sub o.found o.calls o.result o.left := by
  obtain ⟨past, rest, rfl⟩ := List.append_of_mem member
  exact (sweeps.split rfl).2.2.1

theorem Progress.recounts {turnouts : List (Turnout σ)} {todo : List (Subroutine σ)} {outcome : Outcome}
    {closing : List Event} (progress : Progress c now fetched turnouts w todo outcome)
    (made : calls t = begun id fetched turnouts ++ closing) : Recounts c id now fetched t turnouts closing :=
  ⟨made, ⟨w, progress.chain⟩, todo, progress.order.symm⟩

theorem Broken.recounts {turnouts : List (Turnout σ)} {subroutine : String} {error : Error} {closing : List Event}
    (broken : Broken c now fetched turnouts subroutine error w)
    (made : calls t = begun id fetched turnouts ++ closing) : Recounts c id now fetched t turnouts closing := by
  obtain ⟨past, o, todo, outcome, rfl, progress, turns, _⟩ := broken
  exact ⟨made, ⟨o.left, progress.chain.turn progress.clean turns⟩, todo, by simp [progress.order]⟩

theorem Broken.failed {turnouts : List (Turnout σ)} {subroutine : String} {error : Error}
    (broken : Broken c now fetched turnouts subroutine error w) : ∃ o ∈ turnouts, o.failed = true := by
  obtain ⟨past, o, todo, outcome, rfl, _, _, _, result, _⟩ := broken
  exact ⟨o, by simp, by simp [Turnout.failed, result]⟩

theorem Closes.recounts {turnouts : List (Turnout σ)} {verdict : Verdict} {last : Workspace} {closing : List Event}
    (closes : Closes c now fetched turnouts verdict last) (made : calls t = begun id fetched turnouts ++ closing) :
    Recounts c id now fetched t turnouts closing := by
  cases closes with
  | broken broken => exact broken.recounts made
  | whole progress _ => exact progress.recounts made
  | scheduled progress _ _ => exact progress.recounts made

theorem Closes.swept {turnouts : List (Turnout σ)} {verdict : Verdict} {last : Workspace}
    (closes : Closes c now fetched turnouts verdict last) :
    ∃ left, Sweeps c fetched.phase now (first c now fetched) turnouts left ∧
      turnouts.map (·.sub) <+: c.manager.subroutines ∧ last.metadata = left.metadata ∧ last.spec = left.spec := by
  cases closes with
  | broken broken =>
      obtain ⟨past, o, todo, outcome, rfl, progress, turns, _, _, rfl⟩ := broken
      exact ⟨o.left, progress.chain.turn progress.clean turns, ⟨todo, by simp [progress.order]⟩, by simp, by simp⟩
  | @whole _ w progress _ => exact ⟨w, progress.chain, ⟨[], by simp [progress.order]⟩, by simp, by simp⟩
  | @scheduled _ w _ scheduled progress _ drawn =>
      obtain ⟨next, _, rfl⟩ := Option.map_eq_some_iff.mp drawn
      exact ⟨w, progress.chain, ⟨[], by simp [progress.order]⟩, by simp, by simp⟩

theorem Closes.failed {turnouts : List (Turnout σ)} {error : Error} {last : Workspace}
    (closes : Closes c now fetched turnouts (.failure error) last) : ∃ o ∈ turnouts, o.failed = true := by
  cases closes with
  | broken broken => exact broken.failed

theorem Closes.progress {turnouts : List (Turnout σ)} {outcome : Outcome} {last : Workspace}
    (closes : Closes c now fetched turnouts (.outcome outcome) last) :
    ∃ left, Progress c now fetched turnouts left [] outcome := by
  cases closes with
  | whole progress _ | scheduled progress _ _ => exact ⟨_, progress⟩

theorem accounts_breakdown {turnouts : List (Turnout σ)} {subroutine : String} {error : Error}
    (broken : Broken c now fetched turnouts subroutine error w) :
    Accounts c id now fetched (begun id fetched turnouts) w s (.breakdown subroutine error) := by
  unfold Stage.breakdown
  split
  · rename_i cancelled
    subst cancelled
    exact .inr ⟨turnouts, [], .dropped broken, by simp⟩
  · exact ⟨turnouts, broken, rfl⟩

section

variable {sub : Subroutine σ} {todo : List (Subroutine σ)} {outcome : Outcome}
variable {inside : Workspace → List Event → Prop}

theorem Midway.cancelled (midway : Midway c id now fetched done sub todo outcome inside)
    (stopped : c.world.cancelled s = true) (more : List Event) :
    Accounts c id now fetched (done ++ more) w s (.ended (.error (.error .cancelled))) := by
  obtain ⟨turnouts, found, own, _, _, rfl, _⟩ := midway
  exact .inr ⟨turnouts, own ++ more, .cancelled stopped, by simp⟩

theorem Midway.mono {inside' : Workspace → List Event → Prop}
    (midway : Midway c id now fetched done sub todo outcome inside) (more : List Event)
    (onward : ∀ found own, inside found own → inside' found (own ++ more)) :
    Midway c id now fetched (done ++ more) sub todo outcome inside' := by
  obtain ⟨turnouts, found, own, progress, turn, rfl, there⟩ := midway
  exact ⟨turnouts, found, own ++ more, progress, turn, by simp, onward found own there⟩

theorem Midway.broken (midway : Midway c id now fetched done sub todo outcome inside) (error : Error)
    (more : List Event)
    (turned : ∀ found own, Sweep.isSkipped fetched.phase sub found = false → inside found own →
      Turns c fetched.phase now sub found (own ++ more) (some (.error error)) w) :
    ∃ turnouts, Broken c now fetched turnouts sub.name error w ∧ done ++ more = begun id fetched turnouts := by
  obtain ⟨turnouts, found, own, progress, turn, rfl, there⟩ := midway
  refine ⟨turnouts ++ [⟨sub, found, own ++ more, some (.error error), w⟩], ?_, by simp [begun_snoc]⟩
  exact ⟨turnouts, _, todo, outcome, rfl, progress, turned found own turn there, rfl, rfl, rfl⟩

end

theorem accounts_next {turnouts : List (Turnout σ)} {verdict : Verdict} {last : Workspace} {writes : List Event}
    (closes : Closes c now fetched turnouts verdict last) (status : StatusKept fetched last writes w)
    (made : done = begun id fetched turnouts ++ writes) : Accounts c id now fetched done w s verdict.next := by
  cases verdict with
  | outcome outcome => exact ⟨turnouts, last, writes, closes, status, made⟩
  | failure error => exact .inr ⟨turnouts, writes, .closed closes (.failed status), made⟩

theorem accounts_updated {purpose : Purpose σ} (there : Accounts c id now fetched done w s (.writing purpose))
    (stored : Workspace) :
    Accounts c id now fetched (done ++ [.updated w (some (.ok stored))]) (w.adoptVersion stored) s' purpose.next := by
  have persisted : Persisted (w, true) [.updated w (some (.ok stored))] (w.adoptVersion stored) := .written rfl
  cases purpose with
  | register sub todo outcome =>
      refine Midway.mono there _ ?_
      rintro found own ⟨rfl, live, changed⟩
      exact ⟨live, by simpa [changed] using persisted⟩
  | release sub todo outcome result =>
      refine Midway.mono there _ ?_
      rintro found own ⟨answer, ⟨deleted, rfl, _, _, ends⟩, rfl, changed⟩
      exact .finalized deleted ends (by simpa [changed] using persisted)
  | unlabel outcome =>
      obtain ⟨turnouts, last, writes, kept, closes, status, marked, rfl, rfl⟩ := there
      exact .inr ⟨turnouts, writes ++ [.updated (Spread.clearRefreshMarker kept).1 (some (.ok stored))],
        .closed closes (.unlabelled status marked), by simp⟩

theorem broken_of_refused {purpose : Purpose σ} (there : Accounts c id now fetched done w s (.writing purpose))
    {sub : Subroutine σ} (owner : purpose.agenda.head? = some sub) (error : Error) :
    ∃ turnouts, Broken c now fetched turnouts sub.name error w ∧
      done ++ [.updated w (some (.error error))] = begun id fetched turnouts := by
  cases purpose with
  | register s todo outcome =>
      obtain rfl : s = sub := Option.some.inj owner
      refine Midway.broken there error [.updated w (some (.error error))] ?_
      rintro found own turn ⟨rfl, live, changed⟩
      obtain ⟨rfl, moved⟩ := Prod.ext_iff.mp changed
      exact .unregistered turn live moved
  | release s todo outcome result =>
      obtain rfl : s = sub := Option.some.inj owner
      refine Midway.broken there error [.updated w (some (.error error))] ?_
      rintro found own turn ⟨answer, ⟨deleted, rfl, _, _, ends⟩, rfl, changed⟩
      obtain ⟨rfl, moved⟩ := Prod.ext_iff.mp changed
      exact .unreleased turn deleted ends moved
  | unlabel outcome => simp [Purpose.agenda] at owner

theorem accounts_refused {purpose : Purpose σ} (there : Accounts c id now fetched done w s (.writing purpose))
    (error : Error) :
    Accounts c id now fetched (done ++ [.updated w (some (.error error))]) w s' (purpose.refused error) := by
  cases purpose with
  | register sub todo outcome | release sub todo outcome result =>
      obtain ⟨turnouts, broken, made⟩ := broken_of_refused there rfl error
      rw [made]
      exact accounts_breakdown broken
  | unlabel outcome =>
      obtain ⟨turnouts, last, writes, kept, closes, status, marked, rfl, rfl⟩ := there
      exact .inr ⟨turnouts, writes ++ [.updated (Spread.clearRefreshMarker kept).1 (some (.error error))],
        .closed closes (.labelled status marked), by simp⟩

theorem accounts_cut {purpose : Purpose σ} (there : Accounts c id now fetched done w s (.writing purpose))
    (stopped : c.world.cancelled s' = true) (more : List Event) :
    Accounts c id now fetched (done ++ more) w s' (purpose.refused .cancelled) := by
  cases purpose with
  | register sub todo outcome => exact Midway.cancelled there stopped more
  | release sub todo outcome result => exact Midway.cancelled there stopped more
  | unlabel outcome =>
      obtain ⟨turnouts, last, writes, kept, _, _, _, _, rfl⟩ := there
      exact .inr ⟨turnouts, writes ++ more, .cancelled stopped, by simp⟩

theorem Course.accounts (course : Course c id now fetched start t stage w s) :
    Accounts c id now fetched (calls t) w s stage := by
  -- Each step adds at most one call to the trace. The turns stay as they are while one of them is under way
  -- (`Midway`), and get another at its end.
  induction course with
  | start => rfl
  | note record _ ih => rw [calls_snoc_of_not rfl]; exact ih
  | @unread t _ _ answer _ _ error _ asked answered ih =>
      have nothing : calls t = [] := ih
      refine fun last _ => .inl fun found member => ?_
      -- A read that is cut off has no answer, so the trace has no workspace to give an account of.
      rcases answer with _ | answer
      · obtain ⟨_, more, start, made⟩ := calls_cut asked rfl
        rw [made, nothing] at member
        rcases start with rfl | rfl <;> simp at member
      · obtain rfl : answer = .error error := answered
        simp [calls_answered asked rfl, nothing] at member
  | absent => trivial
  | skip => trivial
  | fetch _ asked _ _ ih =>
      have nothing : calls _ = [] := ih
      refine ⟨[], progress_first, ?_⟩
      rw [calls_answered asked rfl, nothing]
      rfl
  | stop _ stopped ih =>
      obtain ⟨turnouts, _, done⟩ := ih
      exact .inr ⟨turnouts, [], .cancelled stopped, by simp [done]⟩
  | @pass _ sub todo outcome w _ _ _ passed ih =>
      obtain ⟨turnouts, progress, done⟩ := ih
      refine ⟨turnouts ++ [⟨sub, w, [], none, w⟩], ?_, by simp [begun_snoc, done]⟩
      exact Progress.turn (o := ⟨sub, w, [], none, w⟩) progress (.passed passed) rfl
  | @enter _ sub todo outcome w _ _ _ turn ih =>
      obtain ⟨turnouts, progress, done⟩ := ih
      exact ⟨turnouts, w, [], progress, turn, by simp [done], rfl, rfl⟩
  | condemned _ deleted ih =>
      obtain ⟨turnouts, found, own, progress, turn, done, rfl, rfl⟩ := ih
      refine ⟨turnouts, found, [], progress, turn, done, ?_, rfl, rfl⟩
      simpa [Workspace.isBeingDeleted, entered] using deleted
  | equipped _ live unchanged ih =>
      obtain ⟨turnouts, found, own, progress, turn, done, rfl, rfl⟩ := ih
      refine ⟨turnouts, found, [], progress, turn, done, ?_, .spared unchanged⟩
      simpa [Workspace.isBeingDeleted, entered] using live
  | register _ live changed ih =>
      obtain ⟨turnouts, found, own, progress, turn, done, rfl, rfl⟩ := ih
      refine ⟨turnouts, found, [], progress, turn, done, rfl, ?_, Prod.ext rfl changed⟩
      simpa [Workspace.isBeingDeleted, entered] using live
  | @step _ phase _ _ _ _ _ answer _ _ _ asked ih =>
      have ends := asked.answered.2
      rw [calls_answered asked rfl]
      cases phase with
      | process =>
          refine Midway.mono ih _ ?_
          rintro found own ⟨live, persisted⟩
          exact .processed live persisted ends
      | finalize =>
          refine Midway.mono ih _ ?_
          rintro found own ⟨deleted, rfl, rfl⟩
          exact ⟨answer, ⟨deleted, rfl, _, _, ends⟩, rfl, rfl⟩
  | @drop _ phase _ _ _ w _ _ _ _ asked ih =>
      obtain ⟨stopped, more, _, made⟩ := calls_cut asked rfl
      rw [made]
      cases phase with
      | process => exact Midway.cancelled (w := w) ih stopped more
      | finalize => exact Midway.cancelled (w := w) ih stopped more
  | keep _ unchanged ih =>
      obtain ⟨turnouts, found, own, progress, turn, done, answer, ⟨deleted, rfl, _, _, ends⟩, rfl, rfl⟩ := ih
      exact ⟨turnouts, found, _, progress, turn, done, .finalized deleted ends (.spared unchanged)⟩
  | release _ changed ih =>
      obtain ⟨turnouts, found, own, progress, turn, done, answer, cleaned, rfl, rfl⟩ := ih
      exact ⟨turnouts, found, own, progress, turn, done, answer, cleaned, rfl, Prod.ext rfl changed⟩
  | written _ asked ih =>
      rw [calls_answered asked rfl]
      exact accounts_updated ih _
  | @unwritten _ purpose w _ answer _ _ error _ asked answered ih =>
      rintro last left
      rcases answer with _ | answer
      · obtain ⟨stopped, more, _, made⟩ := calls_cut asked rfl
        obtain rfl : .cancelled = error := by simpa using answered
        obtain rfl := left.resolve_left (by decide)
        rw [made]
        exact accounts_cut ih stopped more
      · obtain rfl : answer = .error error := answered
        rw [calls_answered asked rfl]
        exact accounts_refused ih error
  | @complete _ sub todo outcome result w _ _ ih =>
      obtain ⟨turnouts, found, own, progress, turn, done, taken⟩ := ih
      let o : Turnout σ := ⟨sub, found, own, some (.ok result), concluded c fetched.phase now sub (.ok result) w⟩
      exact ⟨turnouts ++ [o], Progress.turn (o := o) progress (.taken turn taken) rfl, by simp [begun_snoc, done, o]⟩
  | fail _ ih =>
      intro last _
      rw [calls_snoc_of_not rfl]
      obtain ⟨turnouts, broken, done⟩ := Midway.broken ih _ [] (by
        rintro found own turn taken
        rw [List.append_nil]
        exact Turns.taken turn taken)
      exact ⟨turnouts, broken, by simpa using done⟩
  | report _ reported ih => rw [calls_snoc_of_not rfl]; exact ih _ (.inl reported)
  | conceal _ _ ih => exact ih _ (.inr rfl)
  | abort _ ih =>
      obtain ⟨turnouts, broken, done⟩ := ih
      exact ⟨turnouts, .broken broken, done⟩
  | conclude _ idle ih =>
      obtain ⟨turnouts, progress, done⟩ := ih
      exact ⟨turnouts, .whole progress idle, done⟩
  | schedule _ due drawn ih =>
      obtain ⟨turnouts, progress, done⟩ := ih
      exact ⟨turnouts, .scheduled progress due drawn, done⟩
  | beyond _ due drawn ih =>
      obtain ⟨turnouts, progress, done⟩ := ih
      exact .inr ⟨turnouts, [], .beyond progress due drawn, by simp [done]⟩
  | @unchanged _ verdict w _ _ same ih =>
      obtain ⟨turnouts, closes, done⟩ := ih
      exact accounts_next closes (.same same) (by simp [done])
  | @persist _ verdict w _ stored _ _ _ differs asked ih =>
      obtain ⟨turnouts, closes, done⟩ := ih
      rw [calls_answered asked rfl, done]
      exact accounts_next closes (.stored differs) rfl
  | @vanish _ verdict w _ answer _ _ error _ differs asked answered gone ih =>
      obtain ⟨turnouts, closes, done⟩ := ih
      rcases answer with _ | answer
      · obtain rfl : .cancelled = error := by simpa using answered
        exact absurd gone (not_vanished_cancelled _)
      · obtain rfl : answer = .error error := answered
        rw [calls_answered asked rfl, done]
        exact accounts_next closes (.gone differs gone) rfl
  | @refuse _ verdict w _ answer _ _ error _ differs asked answered kept ih =>
      obtain ⟨turnouts, closes, done⟩ := ih
      intro last left
      rcases answer with _ | answer
      · obtain ⟨stopped, more, start, made⟩ := calls_cut asked rfl
        obtain rfl : .cancelled = error := by simpa using answered
        obtain rfl := left.resolve_left (by decide)
        rw [made, done]
        -- The first error of a reconcile is the one that it ends with, also if it is cancelled afterwards.
        cases verdict with
        | outcome outcome => exact .inr ⟨turnouts, more, .cancelled stopped, rfl⟩
        | failure first => exact .inr ⟨turnouts, more, .closed closes (.cutOff stopped differs start), rfl⟩
      · obtain rfl : answer = .error error := answered
        rw [calls_answered asked rfl, done]
        exact .inr ⟨turnouts, _, .closed closes (.refused differs kept), rfl⟩
  | finish _ unmarked ih =>
      obtain ⟨turnouts, last, writes, closes, status, done⟩ := ih
      exact .inr ⟨turnouts, writes, .closed closes (.finished status unmarked), done⟩
  | unlabel _ marked ih =>
      obtain ⟨turnouts, last, writes, closes, status, done⟩ := ih
      exact ⟨turnouts, last, writes, _, closes, status, marked, rfl, done⟩

end

-- Once an event was marked, the calls that came after it, and the stage that they have led to, are
-- as they should be.
def Since (mark : List Event → Event → Prop) (after : List Event → Workspace → σ → Stage σ → Prop)
    (t : List (Moment σ)) (w : Workspace) (s : σ) (stage : Stage σ) : Prop :=
  ∀ past moment rest, t = past ++ moment :: rest → mark (calls past) moment.event → after (calls rest) w s stage

namespace Since

variable {mark : List Event → Event → Prop} {after : List Event → Workspace → σ → Stage σ → Prop}
variable {t piece : List (Moment σ)} {moment : Moment σ} {w w' : Workspace} {stage next : Stage σ} {s s' : σ}

theorem onward (since : Since mark after t w s stage)
    (onward : ∀ rest, after rest w s stage → after rest w' s' next) : Since mark after t w' s' next :=
  fun past moment rest split marked => onward _ (since past moment rest split marked)

theorem snoc (since : Since mark after t w s stage)
    (onward : ∀ rest, after rest w s stage → after (rest ++ [moment.event].filter Event.isCall) w' s' next)
    (last : mark (calls t) moment.event → after [] w' s' next) : Since mark after (t ++ [moment]) w' s' next := by
  intro past first rest split marked
  rcases split_snoc split with ⟨rfl, rfl⟩ | ⟨front, rfl⟩
  · obtain rfl : rest = [] := by simpa using split
    exact last marked
  · obtain rfl : rest = front ++ [moment] := by simpa using split.symm
    simpa [calls, List.filter_singleton] using onward (calls front) (since past first front rfl marked)

theorem quiet (since : Since mark after t w s stage) (uncalled : moment.event.isCall = false)
    (unmarked : ¬mark (calls t) moment.event) : Since mark after (t ++ [moment]) w s stage :=
  since.snoc (by simp [uncalled]) fun marked => absurd marked unmarked

theorem asked {α : Type} {stop : σ → Bool} {call : σ → Call σ α} {event : Option α → Event} {answer : Option α}
    (since : Since mark after t w s stage) (upright : ∀ rest, ¬after rest w s stage)
    (asked : Run.Asked stop call event s answer piece s')
    (last : mark (calls t) (event answer) → after [] w' s' next) : Since mark after (t ++ piece) w' s' next := by
  rcases asked.ends with ⟨_, rfl, _⟩ | ⟨rfl, _⟩
  · rw [List.append_nil]
    exact since.onward fun rest there => absurd there (upright rest)
  · exact since.snoc (fun rest there => absurd there (upright rest)) last

end Since

structure Blind {α : Type} (c : Cycle σ) (view : Workspace → α) : Prop where
  steps : c.manager.StepsKeep view
  conditions : ∀ w ledger, view (w.setConditions ledger) = view w
  finalizers : ∀ w tokens, view (w.setFinalizers tokens) = view w
  version : ∀ w stored, view (w.adoptVersion stored) = view w

namespace Blind

variable {α : Type} {view : Workspace → α} {c : Cycle σ} {phase : Phase} {now : Timestamp} {sub : Subroutine σ}
variable {fetched found left w : Workspace} {own : List Event} {turnouts : List (Turnout σ)}

theorem amend (blind : Blind c view) (change : Ledger → Ledger × Bool) (w : Workspace) :
    view (c.amend change w) = view w := by
  unfold Cycle.amend
  split
  · exact blind.conditions ..
  · rfl

theorem persisted {changed : Workspace × Bool} (blind : Blind c view) (persisted : Persisted changed own w) :
    view w = view changed.1 := by
  cases persisted with
  | spared => rfl
  | written => exact blind.version ..

theorem concluded (blind : Blind c view) (result : Except OperatorError Outcome) (w : Workspace) :
    view (concluded c phase now sub result w) = view w := by
  unfold Reconciler.concluded
  split
  · split
    · exact blind.amend ..
    · rfl
  · rfl

theorem registered {given : Workspace} (blind : Blind c view)
    (persisted : Persisted ((entered c phase now sub found).register sub.finalizers) own given) :
    view given = view found :=
  calc
    _ = view ((entered c phase now sub found).register sub.finalizers).1 := blind.persisted persisted
    _ = view (entered c phase now sub found) := blind.finalizers ..
    _ = view found := blind.amend ..

theorem released {s s' : σ} {answer : StepAnswer} (blind : Blind c view) (member : sub ∈ c.manager.subroutines)
    (ends : (sub.finalize (entered c phase now sub found) s).Ends (some answer) s') :
    view (answer.workspace.releaseIfIdle sub.finalizers answer.result).1 = view found :=
  calc
    _ = view answer.workspace := Workspace.releaseIfIdle_keeps view blind.finalizers ..
    _ = view (entered c phase now sub found) := blind.steps sub member .finalize _ _ _ _ ends
    _ = view found := blind.amend ..

theorem turns {result : Option (Except Error Outcome)} (blind : Blind c view) (member : sub ∈ c.manager.subroutines)
    (turns : Turns c phase now sub found own result left) : view left = view found := by
  cases turns with
  | passed => rfl
  | taken _ taken =>
      rw [blind.concluded]
      cases taken with
      | processed _ persisted ends =>
          exact (blind.steps sub member .process _ _ _ _ ends).trans (blind.registered persisted)
      | finalized _ ends persisted => exact (blind.persisted persisted).trans (blind.released member ends)
  | unregistered => exact (blind.finalizers ..).trans (blind.amend ..)
  | unreleased _ _ ends _ => exact blind.released member ends

theorem processed {o : Turnout σ} (blind : Blind c view) (live : o.found.isBeingDeleted = false)
    (turns : Turns c .process now o.sub o.found o.calls o.result o.left) (fine : o.failed = false) :
    ∃ given answer outcome, .stepped o.sub.name .process given (some answer) ∈ o.calls ∧ view given = view o.found ∧
      answer.result = .ok outcome ∧ o.result = some (.ok outcome) := by
  obtain ⟨sub, found, own, result, left⟩ := o
  dsimp only at turns live ⊢
  cases turns with
  | passed skipped => simp [Sweep.isSkipped] at skipped
  | taken _ taken =>
      cases taken with
      | @processed _ given _ answer _ _ persisted _ =>
          rcases ended : answer.result with failure | outcome
          · simp [ended, Except.mapError, Turnout.failed] at fine
          · exact ⟨given, answer, outcome, by simp, blind.registered persisted, ended, rfl⟩
      | finalized deleted _ _ => simp [live] at deleted
  | unregistered => simp [Turnout.failed] at fine
  | unreleased _ deleted _ _ => simp [live] at deleted

theorem sweeps (blind : Blind c view) (among : ∀ o ∈ turnouts, o.sub ∈ c.manager.subroutines)
    (sweeps : Sweeps c phase now (first c now fetched) turnouts w) : view w = view fetched := by
  induction sweeps with
  | start => exact blind.amend ..
  | @turn turnouts o _ _ turns ih =>
      have before := ih fun o member => among o (by simp [member])
      exact (blind.turns (among o (by simp)) turns).trans before

end Blind

section

variable {m : Manager σ} {world : World σ} {id : ResourceId} {s : σ} {read : Moment σ} {w : Workspace}

theorem calls_reconcile : calls (m.reconcile world id s).trace = calls (m.attempt world id s).trace := by
  obtain ⟨_, metrics, trace⟩ := m.reconcile_attempt world id s
  simp [trace, calls, Event.isCall]

theorem attempt_split {past rest : List (Moment σ)} {moment : Moment σ}
    (split : (m.reconcile world id s).trace = past ++ moment :: rest) (call : moment.event.isCall = true) :
    ∃ back, (m.attempt world id s).trace = past ++ moment :: back ∧ calls rest = calls back := by
  obtain ⟨_, metrics, trace⟩ := m.reconcile_attempt world id s
  rw [trace] at split
  rcases split_append split with ⟨back, here⟩ | ⟨front, _, later⟩
  · rw [here, List.append_assoc, List.cons_append] at split
    obtain ⟨_, same⟩ := List.cons.inj (List.append_cancel_left split)
    exact ⟨back, here, by simp [← same, calls, Event.isCall]⟩
  · obtain ⟨metric, _, counted⟩ := List.mem_map.mp (later ▸ List.mem_append_right front List.mem_cons_self)
    simp [← counted, Event.isCall] at call

theorem Manager.attempt_accounts (found : Finds id (m.attempt world id s).trace read w)
    (due : ∀ outcome, (m.attempt world id s).value ≠ .ok (.skipped outcome)) :
    ∃ turnouts closing,
      Account (m.cycle world id (world.correlate s).1) (world.now read.after) w turnouts
        (m.attempt world id s).state closing (m.attempt world id s).value ∧
      calls (m.attempt world id s).trace = begun id w turnouts ++ closing := by
  obtain ⟨⟨left, course⟩, _, there⟩ := attempt_finds found
  have accounts := course.accounts
  have asked : .fetched id (some (.ok (some w))) ∈ calls (m.attempt world id s).trace :=
    mem_calls.mpr ⟨⟨read, found⟩, rfl⟩
  rcases value : (m.attempt world id s).value with stop | _ | outcome | outcome
  · rw [value] at accounts
    exact accounts.resolve_left fun unread => unread w asked
  · exact absurd value there
  · exact absurd value (due outcome)
  · rw [value] at accounts
    exact accounts.resolve_left fun unread => unread w asked

end

end Reconciler
