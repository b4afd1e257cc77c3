import Mathlib.Data.List.Perm.Basic
import Reconciler.Proofs.Chronicle.Shelf
import Reconciler.Proofs.Independence.InStep
import Reconciler.Store.Versioned

set_option autoImplicit false

namespace Reconciler

open Reconcile

variable {σ α β : Type}

def World.heeding (world : World σ) (cancelled : Bool) : World σ :=
  { world with cancelled := fun _ => cancelled }

namespace Independence

def renamed (c : Cycle σ) (correlation : String) (spans : List Log.Span) : Cycle σ :=
  { c with tags := { c.tags with correlation := correlation }, spans := spans }

section

variable {c : Cycle σ} {view : View σ} {update restate rule : Rule} {cancelled : Bool}
variable {id : ResourceId} {name : String} {spans : List Log.Span} {w w' : Workspace} {before : σ → σ → Prop}

variable (settled : Settled c.manager c.world view update restate cancelled)

include settled

theorem report_inStep (lasting : Lasting view before) (error : Error) :
    InStep view id before (c.report error) ((renamed c name spans).report error) fun _ _ => before := by
  unfold Cycle.report
  split
  · have captured : InStep view id before (Run.perform (.reported error c.tags) (c.world.capture error c.tags))
        (Run.perform (.reported error (renamed c name spans).tags)
          (c.world.capture error (renamed c name spans).tags)) fun _ _ => before := by
      intro s s' there
      have still := settled.dependable.capture error c.tags s
      have still' := settled.dependable.capture error (renamed c name spans).tags s'
      exact ⟨rfl, lasting _ _ _ _ there still still', still.local, still'.local⟩
    exact .bind captured fun _ _ => .logAll _ _ _ _
  · exact .pure fun _ _ there => there

theorem storeFailed_inStep (lasting : Lasting view before) (doing : String) (error : Error) :
    InStep view id before (c.storeFailed doing error) ((renamed c name spans).storeFailed doing error)
      fun _ _ => before := by
  unfold Cycle.storeFailed
  split
  · exact .bind (.log _ _ _ _) fun _ _ => report_inStep settled lasting error
  · exact report_inStep settled lasting error

theorem ask_inStep {call call' : σ → Call σ (Except Error α)} {event event' : Option (Except Error α) → Event}
    {after : Except Error α → Except Error α → σ → σ → Prop}
    (unasked : ∀ s s', before s s' → after (.error .cancelled) (.error .cancelled) s s')
    (asked : ∀ s s', before s s' →
      (event (some (call s).finish.1)).told? = (event' (some (call' s').finish.1)).told? ∧
        after (call s).finish.1 (call' s').finish.1 (call s).finish.2 (call' s').finish.2 ∧
          Local view id s (call s).finish.2 ∧ Local view id s' (call' s').finish.2) :
    InStep view id before (c.ask call event) ((renamed c name spans).ask call' event') after := by
  have guarded : InStep view id before (Run.guarded c.world.cancelled call event)
      (Run.guarded c.world.cancelled call' event')
      fun answer answer' => after (answer.getD (.error .cancelled)) (answer'.getD (.error .cancelled)) :=
    .guarded settled.token unasked asked
  exact .bind guarded fun _ _ => .pure fun _ _ holds => holds

theorem write_inStep {write : Workspace → σ → Call σ (Except Error Workspace)}
    (event : Workspace → Option (Except Error Workspace) → Event) (obeys : Obeys view rule write)
    (tells : ∀ w answer, (event w (some answer)).told? = (event w.plain (some (answer.map Workspace.plain))).told?) :
    InStep view id (Paired view id w w') (c.ask (write w) (event w)) ((renamed c name spans).ask (write w') (event w'))
      (Both (fun stored stored' => Paired view id (w.adoptVersion stored) (w'.adoptVersion stored'))
        (Paired view id w w')) := by
  refine ask_inStep settled (fun _ _ paired => .error paired) fun s s' paired => ?_
  obtain ⟨answers, both, own, own'⟩ := write_obeyed obeys paired
  exact ⟨by rw [tells, tells w', answers, paired.alike], both, own, own'⟩

abbrev Persisted (view : View σ) (id : ResourceId) (w w' : Workspace) :
    Except Error Workspace → Except Error Workspace → σ → σ → Prop :=
  Both (Paired view id) (Paired view id w w')

theorem persistMetadata_inStep :
    InStep view id (Paired view id w w') (c.persistMetadata w) ((renamed c name spans).persistMetadata w')
      (Persisted view id w w') := by
  refine .bind (write_inStep settled .updated settled.dependable.update fun _ answer => ?_) (.either ?_ ?_)
  · cases answer <;> rfl
  · exact fun _ _ => .pure fun _ _ paired => .ok paired
  · exact fun error => .bind (storeFailed_inStep settled Paired.lasting _ error) fun _ _ =>
      .pure fun _ _ paired => .error paired

theorem persistStatus_inStep (status : Workspace.Status) :
    InStep view id (Paired view id w w') (c.persistStatus status w)
      ((renamed c name spans).persistStatus status w') (Persisted view id w w') := by
  refine .given (fun _ _ paired => paired.alike) fun alike => ?_
  unfold Cycle.persistStatus
  rw [← currentStatus_eq alike]
  split
  · exact .bind (.log _ _ _ _) fun _ _ => .pure fun _ _ paired => .ok paired
  · refine .bind (.log _ _ _ _) fun _ _ => .bind
      (write_inStep settled .statusUpdated settled.dependable.updateStatus fun _ answer => ?_) (.either ?_ ?_)
    · cases answer <;> rfl
    · exact fun _ _ => .pure fun _ _ paired => .ok paired
    · intro error
      dsimp only
      rw [← isGone_eq alike]
      split
      · exact .bind (.log _ _ _ _) fun _ _ => .pure fun _ _ paired => .ok paired
      · exact .bind (storeFailed_inStep settled Paired.lasting _ error) fun _ _ => .pure fun _ _ paired => .error paired

theorem persistFinalizers_inStep (doing : String) {changed changed' : Bool} (same : changed = changed') :
    InStep view id (Paired view id w w') (Turn.persistFinalizers c doing changed w)
      (Turn.persistFinalizers (renamed c name spans) doing changed' w') (Persisted view id w w') := by
  subst same
  unfold Turn.persistFinalizers
  split
  · exact .bind (.log _ _ _ _) fun _ _ => persistMetadata_inStep settled
  · exact .pure fun _ _ paired => .ok paired

inductive Stepped (view : View σ) (id : ResourceId) (w w' : Workspace) :
    Option StepAnswer → Option StepAnswer → σ → σ → Prop where
  | cancelled {s s'} : Paired view id w w' s s' → Stepped view id w w' none none s s'
  | answered {answer answer' : StepAnswer} {s s'} :
      answer.result = answer'.result → Paired view id answer.workspace answer'.workspace s s' →
      Stepped view id w w' (some answer) (some answer') s s'

omit settled in
theorem InStep.stepped {next next' : Option StepAnswer → Run σ β} {after : β → β → σ → σ → Prop}
    (cancelled : InStep view id (Paired view id w w') (next none) (next' none) after)
    (answered : ∀ answer answer' : StepAnswer, answer.result = answer'.result →
      InStep view id (Paired view id answer.workspace answer'.workspace) (next (some answer)) (next' (some answer'))
        after) (answer answer' : Option StepAnswer) :
    InStep view id (Stepped view id w w' answer answer') (next answer) (next' answer') after := by
  intro s s' stepped
  cases stepped with
  | cancelled paired => exact cancelled s s' paired
  | answered same paired => exact answered _ _ same s s' paired

theorem invoke_inStep {sub : Subroutine σ} (member : sub ∈ c.manager.subroutines) (phase : Phase) :
    InStep view id (Paired view id w w') (Turn.invoke c sub phase w)
      (Turn.invoke (renamed c name spans) sub phase w') (Stepped view id w w') := by
  obtain ⟨status, result, steps⟩ := settled.steps sub member phase
  have called : InStep view id (Paired view id w w')
      (Run.guarded c.world.cancelled (sub.step phase w) (.stepped sub.name phase w))
      (Run.guarded c.world.cancelled (sub.step phase w') (.stepped sub.name phase w')) (Stepped view id w w') := by
    refine .guarded settled.token (fun _ _ paired => .cancelled paired) fun s s' paired => ?_
    obtain ⟨workspace, answer, still⟩ := steps w s
    obtain ⟨workspace', answer', still'⟩ := steps w' s'
    have alike := paired.alike
    rw [← alike] at workspace' answer'
    have left : Paired view id _ _ _ _ :=
      (Paired.lasting _ _ _ _ paired still still').change (indifferent_status (status w.plain))
    rw [← workspace, ← workspace'] at left
    refine ⟨?_, .answered (answer.trans answer'.symm) left, still.local, still'.local⟩
    simp [Event.told?, alike, answer, answer', left.alike]
  refine .bind called (.stepped (.pure fun _ _ paired => .cancelled paired) fun answer answer' same => ?_)
  exact .bind (.logAll _ _ _ _) fun _ _ => .pure fun _ _ paired => .answered same paired

structure Turned (view : View σ) (id : ResourceId) (turn turn' : Turn) (s s' : σ) : Prop where
  result : turn.result = turn'.result
  paired : Paired view id turn.workspace turn'.workspace s s'

theorem close_inStep (sub : Subroutine σ) (result : Except OperatorError Outcome) :
    InStep view id (Paired view id w w') (Turn.close c sub w result)
      (Turn.close (renamed c name spans) sub w' result) (Turned view id) := by
  rcases result with failure | outcome
  · refine .bind (.counted _) fun _ _ => .bind (.log _ _ _ _) fun _ _ => ?_
    exact .bind (report_inStep settled Paired.lasting _) fun _ _ => .pure fun _ _ paired => ⟨rfl, paired⟩
  · exact .bind (.log _ _ _ _) fun _ _ => .pure fun _ _ paired => ⟨rfl, paired⟩

variable (name spans) in
theorem process_inStep {sub : Subroutine σ} (member : sub ∈ c.manager.subroutines) :
    InStep view id (Paired view id w w') (Turn.process c sub w)
      (Turn.process (renamed c name spans) sub w') (Turned view id) := by
  refine .given (fun _ _ paired => plain_eq_iff.mp paired.alike) ?_
  rintro ⟨version, rfl⟩
  refine .bind ((persistFinalizers_inStep settled "registering finalizers" rfl).onward
    fun _ _ paired => paired.change (indifferent_register sub.finalizers)) (.either ?_ ?_)
  · refine fun v v' => .bind (invoke_inStep settled member .process) (.stepped ?_ ?_)
    · exact .pure fun _ _ paired => ⟨rfl, paired⟩
    · intro answer answer' same
      dsimp only
      rw [← same]
      exact close_inStep settled sub answer.result
  · exact fun error => .pure fun _ _ paired => ⟨rfl, paired⟩

variable (name spans) in
theorem finalize_inStep {sub : Subroutine σ} (member : sub ∈ c.manager.subroutines) :
    InStep view id (Paired view id w w') (Turn.finalize c sub w)
      (Turn.finalize (renamed c name spans) sub w') (Turned view id) := by
  refine .bind (invoke_inStep settled member .finalize) (.stepped ?_ ?_)
  · exact .pure fun _ _ paired => ⟨rfl, paired⟩
  · intro answer answer' same
    dsimp only
    rw [← same]
    refine .given (fun _ _ paired => changed_eq paired.alike sub.finalizers answer.result) fun changed => ?_
    refine .bind ((persistFinalizers_inStep settled "releasing finalizers" changed).onward
      fun _ _ paired => paired.change (indifferent_releaseIfIdle sub.finalizers answer.result)) (.either ?_ ?_)
    · exact fun _ _ => close_inStep settled sub answer.result
    · exact fun error => .pure fun _ _ paired => ⟨rfl, paired⟩

theorem turn_inStep {sub : Subroutine σ} (member : sub ∈ c.manager.subroutines) :
    InStep view id (Paired view id w w') (Turn.run c sub w)
      (Turn.run (renamed c name spans) sub w') (Turned view id) := by
  refine .given (fun _ _ paired => plain_eq_iff.mp paired.alike) ?_
  rintro ⟨version, rfl⟩
  refine .bind (.log _ _ _ _) fun _ _ => ?_
  have same : (w.setResourceVersion version).isBeingDeleted = w.isBeingDeleted := rfl
  rw [same]
  split
  · exact finalize_inStep (c := { c with spans := Turn.span sub.name :: c.spans }) name
      (Turn.span sub.name :: spans) settled member
  · exact process_inStep (c := { c with spans := Turn.span sub.name :: c.spans }) name
      (Turn.span sub.name :: spans) settled member

theorem isCancelled_inStep :
    InStep view id before c.isCancelled (renamed c name spans).isCancelled
      fun stopped stopped' s s' => stopped = stopped' ∧ before s s' := by
  intro s s' there
  have same : c.world.cancelled s = c.world.cancelled s' := by rw [settled.token]
  exact ⟨rfl, ⟨same, there⟩, .refl s, .refl s'⟩

theorem sweep_inStep (phase : Phase) (now : Timestamp) {todo : List (Subroutine σ)}
    (members : ∀ sub ∈ todo, sub ∈ c.manager.subroutines) (outcome : Outcome) :
    InStep view id (Paired view id w w') (Sweep.run c phase now todo outcome w)
      (Sweep.run (renamed c name spans) phase now todo outcome w')
      fun left left' s s' => left.2 = left'.2 ∧ Paired view id left.1 left'.1 s s' := by
  induction todo generalizing outcome w w' with
  | nil => exact .pure fun _ _ paired => ⟨rfl, paired⟩
  | cons sub todo ih =>
      have later : ∀ other ∈ todo, other ∈ c.manager.subroutines := fun other among => members other (by simp [among])
      -- The workspaces differ in their versions only, so what is decided by them is decided alike.
      refine .given (fun _ _ paired => plain_eq_iff.mp paired.alike) ?_
      rintro ⟨version, rfl⟩
      refine .bind (isCancelled_inStep settled) (.same fun stopped => ?_)
      split
      · exact .pure fun _ _ paired => ⟨rfl, paired⟩
      · have same : Sweep.isSkipped phase sub (w.setResourceVersion version) = Sweep.isSkipped phase sub w := rfl
        rw [same]
        split
        · exact .bind (.log _ _ _ _) fun _ _ => ih later outcome
        · refine .bind ((turn_inStep settled (members sub (by simp))).onward
            fun _ _ paired => paired.change (indifferent_amend c _)) fun turn turn' => ?_
          refine .given (fun _ _ turned => turned.result) fun result => ?_
          rw [← result]
          suffices InStep view id (Paired view id turn.workspace turn'.workspace) _ _ _ from
            this.onward fun _ _ turned => turned.paired
          split
          · refine (ih later _).onward fun _ _ paired => ?_
            split
            · exact paired.change (indifferent_amend c _)
            · exact paired
          · exact .pure fun _ _ paired => ⟨rfl, paired⟩
          · exact .pure fun _ _ paired => ⟨rfl, paired⟩

omit settled in
theorem schedule_unspread (unspread : c.manager.spread = false) (phase : Phase) (now : Timestamp) (outcome : Outcome)
    (w : Workspace) : schedule c phase now outcome w = pure (some w) := by
  simp [schedule, schedules, unspread]

omit settled in
theorem clearRefresh_unspread (unspread : c.manager.spread = false) (phase : Phase) (w : Workspace) :
    clearRefresh c phase w = pure (.ok ()) := by
  simp [clearRefresh, unlabels, unspread]

theorem conclude_inStep (phase : Phase) (now : Timestamp) (status : Workspace.Status) (outcome : Outcome) :
    InStep view id (Paired view id w w') (conclude c phase now status outcome w)
      (conclude (renamed c name spans) phase now status outcome w') (Agreed view id) := by
  have unspread : (renamed c name spans).manager.spread = false := settled.unspread
  simp only [conclude, schedule_unspread settled.unspread, schedule_unspread unspread,
    clearRefresh_unspread settled.unspread, clearRefresh_unspread unspread, pure_bind]
  refine .bind ((persistStatus_inStep settled status).onward
    fun _ _ paired => paired.change (indifferent_amend c _)) (.either ?_ ?_)
  · exact fun _ _ => .bind (.log _ _ _ _) fun _ _ => .pure fun _ _ paired => ⟨rfl, paired.level⟩
  · exact fun error => .pure fun _ _ paired => ⟨rfl, paired.level⟩

theorem abort_inStep (phase : Phase) (now : Timestamp) (status : Workspace.Status) (subroutine : String)
    (error : Error) :
    InStep view id (Paired view id w w') (abort c phase now status subroutine error w)
      (abort (renamed c name spans) phase now status subroutine error w') (Agreed view id) := by
  refine .bind ((persistStatus_inStep settled status).onward
    fun _ _ paired => (paired.change (indifferent_amend c _)).change (indifferent_amend c _)) (.either ?_ ?_)
  · exact fun _ _ => .pure fun _ _ paired => ⟨rfl, paired.level⟩
  · exact fun error => .bind (.log _ _ _ _) fun _ _ => .pure fun _ _ paired => ⟨rfl, paired.level⟩

theorem converge_inStep (now : Timestamp) :
    InStep view id (Paired view id w w') (converge c now w)
      (converge (renamed c name spans) now w') (Agreed view id) := by
  refine .given (fun _ _ paired => plain_eq_iff.mp paired.alike) ?_
  rintro ⟨version, rfl⟩
  refine .bind ((sweep_inStep settled w.phase now (fun _ member => member) .done).onward
    fun _ _ paired => paired.change (indifferent_amend c _)) ?_
  rintro ⟨left, swept⟩ ⟨left', swept'⟩
  refine .given (fun _ _ there => there.1) ?_
  rintro rfl
  suffices InStep view id (Paired view id left left') _ _ _ from this.onward fun _ _ => And.right
  cases swept with
  | finished outcome => exact conclude_inStep settled w.phase now w.currentStatus outcome
  | cancelled => exact .pure fun _ _ paired => ⟨rfl, paired.level⟩
  | failed subroutine error => exact abort_inStep settled w.phase now w.currentStatus subroutine error

inductive Found (view : View σ) (id : ResourceId) : Option Workspace → Option Workspace → σ → σ → Prop where
  | missing {s s'} : Level view id s s' → Found view id none none s s'
  | stored {w w' s s'} : Paired view id w w' s s' → Found view id (some w) (some w') s s'

omit settled in
theorem InStep.found {next next' : Option Workspace → Run σ β} {after : β → β → σ → σ → Prop}
    (missing : InStep view id (Level view id) (next none) (next' none) after)
    (stored : ∀ w w', InStep view id (Paired view id w w') (next (some w)) (next' (some w')) after)
    (answer answer' : Option Workspace) :
    InStep view id (Found view id answer answer') (next answer) (next' answer') after := by
  intro s s' found
  cases found with
  | missing level => exact missing s s' level
  | stored paired => exact stored _ _ s s' paired

omit settled in
theorem found_of_level {s s' : σ} (level : Level view id s s') (filed : Filed view id s) :
    Found view id (view.content s id) (view.content s' id) s s' := by
  have stored := level.stored
  rcases there : view.content s id with _ | w <;> rcases there' : view.content s' id with _ | w' <;>
    simp only [there, there', Option.map_some, Option.map_none, reduceCtorEq] at stored
  · exact .missing level
  · refine .stored ⟨level, Option.some.inj stored, filed w there, fun v same => ?_, fun v same => ?_⟩
    · rw [Option.some.inj (there.symm.trans same)]
    · rw [Option.some.inj (there'.symm.trans same)]

theorem get_inStep :
    InStep view id (fun s s' => Level view id s s' ∧ Filed view id s) (c.get id) ((renamed c name spans).get id)
      (Both (Found view id) (Level view id)) := by
  refine ask_inStep settled (fun _ _ there => .error there.1) ?_
  rintro s s' ⟨level, filed⟩
  obtain ⟨answer, still⟩ := settled.dependable.get id s
  obtain ⟨answer', still'⟩ := settled.dependable.get id s'
  have found := found_of_level (Level.lasting _ _ _ _ level still still') (filed.still still)
  rw [still.content, still'.content] at found
  have world : (renamed c name spans).world = c.world := rfl
  rw [world, answer, answer']
  exact ⟨by simp [Event.told?, Except.map, level.stored], .ok found, still.local, still'.local⟩

variable (name spans) in
theorem run_inStep :
    InStep view id (fun s s' => Level view id s s' ∧ Filed view id s) (Reconcile.run c id)
      (Reconcile.run (renamed c name spans) id) (Agreed view id) := by
  have timed {w w' : Workspace} : InStep view id (Paired view id w w') (Run.observe c.world.now)
      (Run.observe c.world.now) fun now now' s s' => now = now' ∧ Paired view id w w' s s' := by
    intro s s' paired
    have same : c.world.now s = c.world.now s' := by
      rw [settled.dependable.clock]
      exact paired.level.clock
    exact ⟨rfl, ⟨same, paired⟩, .refl s, .refl s'⟩
  refine .bind (.log _ _ _ _) fun _ _ => .bind (get_inStep settled) (.either (.found ?_ ?_) ?_)
  · exact .bind (.log _ _ _ _) fun _ _ => .pure fun _ _ level => ⟨rfl, level⟩
  · refine fun w w' => .bind timed (.same fun now => ?_)
    have due (c' : Cycle σ) (same : c'.manager = c.manager) (w : Workspace) : skips c' now w = none := by
      simp [skips, same, settled.unspread]
    rw [due c rfl, due (renamed c name spans) rfl]
    exact converge_inStep settled now
  · exact fun error => .bind (storeFailed_inStep settled Level.lasting _ error) fun _ _ =>
      .pure fun _ _ level => ⟨rfl, level⟩

end

section

variable {m : Manager σ} {world : World σ} {view : View σ} {update restate : Rule}
variable {cancelled : Bool} {id x y : ResourceId} {s : σ}

theorem told_append (t t' : List (Moment σ)) : told (t ++ t') = told t ++ told t' := List.filterMap_append

theorem finish_inStep (controller : String) (result : Except Stop Finished) :
    InStep view id (Level view id) (finish controller result) (finish controller result) (Agreed view id) := by
  intro s s' level
  rcases result with (_ | _) | _ <;> exact ⟨rfl, ⟨rfl, level⟩, .refl s, .refl s'⟩

theorem reconcile_inStep (settled : Settled m world view update restate cancelled) :
    InStep view id (fun s s' => Level view id s s' ∧ Filed view id s) (m.reconcile world id) (m.reconcile world id)
      (Agreed view id) := by
  have named : InStep view id (fun s s' => Level view id s s' ∧ Filed view id s) (Run.change world.correlate)
      (Run.change world.correlate) fun _ _ s s' => Level view id s s' ∧ Filed view id s := by
    rintro s s' ⟨level, filed⟩
    have still := settled.dependable.correlate s
    have still' := settled.dependable.correlate s'
    exact ⟨rfl, ⟨Level.lasting _ _ _ _ level still still', filed.still still⟩, still.local, still'.local⟩
  have attempted : InStep view id (fun s s' => Level view id s s' ∧ Filed view id s) (m.attempt world id)
      (m.attempt world id) (Agreed view id) :=
    .bind named fun name name' => run_inStep (c := m.cycle world id name) name' [Cycle.span ⟨_, _, id, name'⟩] settled
  exact .bind attempted (.same fun result => finish_inStep m.controller result)

theorem Dependable.settled (dependable : Dependable world view update restate) (steps : Plainly m view)
    (unspread : m.spread = false) (cancelled : Bool) :
    Settled m (world.heeding cancelled) view update restate cancelled where
  dependable := { dependable with }
  steps := steps
  unspread := unspread
  token := rfl

-- Two reconciles can change places: each has the same result, makes the same calls, and reports and counts the same,
-- whichever comes first; the store is left with the same, versions apart; and neither touches a resource of another
-- id.
structure Commute (view : View σ) (reconcile : ResourceId → σ → Ran σ (Except Stop Outcome)) (x y : ResourceId)
    (s : σ) : Prop where
  values : (reconcile x s).value = (reconcile x (reconcile y s).state).value ∧
    (reconcile y s).value = (reconcile y (reconcile x s).state).value
  each : told (reconcile x s).trace = told (reconcile x (reconcile y s).state).trace ∧
    told (reconcile y s).trace = told (reconcile y (reconcile x s).state).trace
  together : (told ((reconcile x s).trace ++ (reconcile y (reconcile x s).state).trace)).Perm
    (told ((reconcile y s).trace ++ (reconcile x (reconcile y s).state).trace))
  stored : ∀ id, (view.content (reconcile y (reconcile x s).state).state id).map Workspace.plain =
    (view.content (reconcile x (reconcile y s).state).state id).map Workspace.plain
  others : ∀ id, (id ≠ x → view.content (reconcile x s).state id = view.content s id ∧
      view.content (reconcile x (reconcile y s).state).state id = view.content (reconcile y s).state id) ∧
    (id ≠ y → view.content (reconcile y s).state id = view.content s id ∧
      view.content (reconcile y (reconcile x s).state).state id = view.content (reconcile x s).state id)

/-- The order in which two resources are reconciled shows in nothing but versions. -/
theorem reconciles_commute (dependable : Dependable world view update restate) (steps : Plainly m view)
    (unspread : m.spread = false) (stop : ResourceId → Bool) (apart : x ≠ y) (filed : ∀ id, Filed view id s) :
    Commute view (fun id => m.reconcile (world.heeding (stop id)) id) x y s := by
  have settled (id : ResourceId) := dependable.settled steps unspread (stop id)
  have level {id : ResourceId} {s' : σ} (clock : view.now s = view.now s')
      (same : view.content s' id = view.content s id) : Level view id s s' ∧ Filed view id s :=
    ⟨⟨clock, by rw [same]⟩, filed id⟩
  obtain ⟨-, -, ownX, -⟩ := reconcile_inStep (settled x) s s (level rfl rfl)
  obtain ⟨-, -, ownY, -⟩ := reconcile_inStep (settled y) s s (level rfl rfl)
  -- Each finds its own resource, and the clock, as if the other had not been.
  obtain ⟨toldX, ⟨valueX, levelX⟩, -, ownX'⟩ :=
    reconcile_inStep (settled x) s _ (level ownY.clock.symm (ownY.elsewhere x apart))
  obtain ⟨toldY, ⟨valueY, levelY⟩, -, ownY'⟩ :=
    reconcile_inStep (settled y) s _ (level ownX.clock.symm (ownX.elsewhere y apart.symm))
  refine ⟨⟨valueX, valueY⟩, ⟨toldX, toldY⟩, ?_, fun id => ?_, fun id => ⟨fun other => ?_, fun other => ?_⟩⟩
  · rw [told_append, told_append, toldX, toldY]
    exact List.perm_append_comm
  · by_cases atX : id = x
    · rw [atX, ownY'.elsewhere x apart]
      exact levelX.stored
    · by_cases atY : id = y
      · rw [atY, ownX'.elsewhere y apart.symm]
        exact levelY.stored.symm
      · rw [ownY'.elsewhere id atY, ownX.elsewhere id atX, ownX'.elsewhere id atX, ownY.elsewhere id atY]
  · exact ⟨ownX.elsewhere id other, ownX'.elsewhere id other⟩
  · exact ⟨ownY.elsewhere id other, ownY'.elsewhere id other⟩

end

section

structure Depot where
  objects : List (ResourceId × Workspace) := []
  revision : Nat := 0
  reconciles : Nat := 0

namespace Depot

def versioned (depot : Depot) : Versioned where
  name := "depot"
  objects := depot.objects
  revision := depot.revision

def view : View Depot where
  now _ := .epoch
  content depot id := depot.versioned.get? id

def apply (depot : Depot) : Except Error Workspace × Versioned → Call Depot (Except Error Workspace)
  | (answer, next) => .done answer { depot with objects := next.objects, revision := next.revision }

def world : World Depot where
  get id depot := .done (.ok (depot.versioned.get? id)) depot
  update given depot := depot.apply (depot.versioned.update given)
  updateStatus given depot := depot.apply (depot.versioned.updateStatus given)
  now _ := .epoch
  draw depot := (Shelf.soonest, depot)
  cancelled _ := false
  correlate depot := (toString depot.reconciles, { depot with reconciles := depot.reconciles + 1 })
  capture _ _ depot := ([], depot)

def refusal (_ : ResourceId) : Error :=
  ({} : Depot).versioned.refusal "NotFound" 404

def revising : Rule where
  written stored given := (stored.setFinalizers given.finalizers).setLabels given.labels
  leaves stored given := stored.isBeingDeleted && given.finalizers.isEmpty
  missing := refusal

def restating : Rule where
  written stored given := { stored with status := given.status }
  leaves _ _ := false
  missing := refusal

theorem content_apply (depot : Depot) (ended : Except Error Workspace × Versioned) (id : ResourceId) :
    view.content (depot.apply ended).finish.2 id = ended.2.get? id := rfl

theorem obeys_of {rule : Rule} (write : Versioned → Workspace → Except Error Workspace × Versioned)
    (stores : ∀ (store : Versioned) given stored, store.writable given = .ok stored →
      let written := (rule.written stored.plain given.plain).setResourceVersion (some store.nextVersion)
      let next := store.put given.id written
      write store given = (.ok written, if rule.leaves stored.plain given.plain then next.remove given.id else next))
    (refuses : ∀ (store : Versioned) given error, store.writable given = .error error →
      write store given = (.error error, store))
    (missing : rule.missing = refusal) :
    Obeys view rule fun given depot => depot.apply (write depot.versioned given) where
  stored w depot v there version := by
    have found : depot.versioned.get? w.id = some v := there
    have writable : depot.versioned.writable w = .ok v := by simp [Versioned.writable, found, version]
    refine ⟨some depot.versioned.nextVersion, ?_⟩
    rw [stores _ _ _ writable]
    refine ⟨rfl, ?_⟩
    rw [content_apply]
    split
    · rw [Versioned.get?_remove, if_pos rfl]
    · rw [Versioned.get?_put, if_pos rfl]
      rfl
  missing w depot nothing := by
    have found : depot.versioned.get? w.id = none := nothing
    have unwritable : depot.versioned.writable w = .error (refusal w.id) := by
      rw [Versioned.writable, found]
      rfl
    rw [refuses _ _ _ unwritable, missing]
    exact ⟨rfl, nothing⟩
  elsewhere w depot id other := by
    rcases writable : depot.versioned.writable w with error | v
    · rw [refuses _ _ _ writable]
      rfl
    · rw [stores _ _ _ writable]
      rw [content_apply]
      split
      · rw [Versioned.get?_remove, if_neg other, Versioned.get?_put, if_neg other]
        rfl
      · rw [Versioned.get?_put, if_neg other]
        rfl
  clock _ _ := rfl

theorem obeys_update : Obeys view revising world.update :=
  obeys_of Versioned.update (fun store given stored writable => by rw [Versioned.update, writable]; rfl)
    (fun store given error unwritable => by rw [Versioned.update, unwritable]) rfl

theorem obeys_updateStatus : Obeys view restating world.updateStatus :=
  obeys_of Versioned.updateStatus (fun store given stored writable => by rw [Versioned.updateStatus, writable]; rfl)
    (fun store given error unwritable => by rw [Versioned.updateStatus, unwritable]) rfl

theorem dependable : Dependable world view revising restating where
  clock := rfl
  get _ _ := ⟨rfl, rfl, rfl⟩
  update := obeys_update
  updateStatus := obeys_updateStatus
  correlate _ := ⟨rfl, rfl⟩
  capture _ _ _ := ⟨rfl, rfl⟩

def answering (w : Workspace) (result : Except OperatorError Outcome) (depot : Depot) : Call Depot StepAnswer :=
  .done { workspace := w, result := result } depot

def volume : Subroutine Depot where
  name := "volume"
  finalizers := ["volume"]
  process w := answering { w with status := some { w.currentStatus with provided := some "bound" } } (.ok .done)
  finalize w := answering w (.ok .done)

def mail : Subroutine Depot where
  name := "mail"
  process w := answering w (.error (.retryable (.text "no postman")))
  finalize w := answering w (.ok .done)

def keeper : Manager Depot where
  operator := "converge"
  controller := "workspaces"
  subroutines := [volume, mail]
  conditions := true
  faultless := by decide

def web : ResourceId := ⟨"default", "web"⟩

def api : ResourceId := ⟨"default", "api"⟩

def filled : Depot where
  objects := [
    (api, { metadata := { name := some "api", ns := some "default", deletionTimestamp := some .epoch,
                          finalizers := some ["volume"], resourceVersion := some "1" },
            spec := { target := "api" } }),
    (web, { metadata := { name := some "web", ns := some "default", resourceVersion := some "2" },
            spec := { target := "web" } })]
  revision := 2

def reconcile (id : ResourceId) : Run Depot (Except Stop Outcome) :=
  keeper.reconcile (world.heeding false) id

end Depot

open Depot in
-- The subroutine of one fails and is reported, the other leaves the store; the versions tell which came first.
theorem reconciles_commute_filled :
    (reconcile web filled).value = .error (.error (.subroutine "mail" (.retryable (.text "no postman")))) ∧
      (reconcile api filled).value = .ok .done ∧ view.content (reconcile api filled).state api = none ∧
      view.content (reconcile api (reconcile web filled).state).state web ≠
        view.content (reconcile web (reconcile api filled).state).state web ∧
      Commute view reconcile web api filled := by
  have steps : Plainly keeper view := by
    intro sub member phase
    simp only [keeper, List.mem_cons, List.not_mem_nil, or_false] at member
    rcases member with rfl | rfl <;> cases phase
    · exact ⟨fun w => some { w.currentStatus with provided := some "bound" }, fun _ => .ok .done,
        fun _ _ => ⟨rfl, rfl, rfl, rfl⟩⟩
    · exact ⟨fun w => w.status, fun _ => .ok .done, fun _ _ => ⟨rfl, rfl, rfl, rfl⟩⟩
    · exact ⟨fun w => w.status, fun _ => .error (.retryable (.text "no postman")), fun _ _ => ⟨rfl, rfl, rfl, rfl⟩⟩
    · exact ⟨fun w => w.status, fun _ => .ok .done, fun _ _ => ⟨rfl, rfl, rfl, rfl⟩⟩
  have filed (id : ResourceId) : Filed view id filled := by
    intro w there
    simp only [view, versioned, Versioned.get?, filled, Versioned.lookup_cons_if, List.lookup_nil] at there
    split at there
    · rename_i same
      obtain rfl := Option.some.inj there
      exact same.symm
    · split at there
      · rename_i same
        obtain rfl := Option.some.inj there
        exact same.symm
      · simp at there
  refine ⟨by decide +kernel, by decide +kernel, by decide +kernel, by decide +kernel, ?_⟩
  exact reconciles_commute Depot.dependable steps rfl (fun _ => false) (by decide) filed

end

end Independence

end Reconciler
