import Reconciler.Proofs.SweepOrder

set_option autoImplicit false

namespace Reconciler

open Reconcile

variable {σ : Type}

namespace Deletion

def spared (subs : List (Subroutine σ)) (present : List Finalizer.Token) : List Finalizer.Token :=
  present.filter fun token => !subs.any (·.finalizers.contains token)

-- Nobody else is at the resource. Both writes keep the deletion mark, and a write of metadata stores the finalizers
-- that it was given; without any, the resource leaves.
def rules : Rules where
  others _ := False
  update given _ d := ∃ found written, d.found = some found ∧ d.written = some written ∧
    written.isBeingDeleted = found.isBeingDeleted ∧ written.finalizers = given.finalizers ∧
    d.leaves = (found.isBeingDeleted && given.finalizers.isEmpty)
  updateStatus _ _ d := ∃ found written, d.found = some found ∧ d.written = some written ∧
    written.isBeingDeleted = found.isBeingDeleted ∧ written.finalizers = found.finalizers ∧ d.leaves = false

def Served (given : Workspace) (stored : Option Workspace) (answer : Except Error Workspace) : Prop :=
  match stored with
  | some v => v.metadata.resourceVersion = given.metadata.resourceVersion → ∃ written, answer = .ok written
  | none => ∃ error, answer = .error error ∧ error.isNotFound = true

-- The store does not fail, and nobody cancels.
structure Reliable (world : World σ) (id : ResourceId) (chronicle : σ → Chronicle) : Prop where
  live : ∀ s, world.cancelled s = false
  get : ∀ {s answer s'}, (world.get id s).Ends (some answer) s' → ∃ found, answer = .ok found
  update : ∀ {given s answer s'}, given.id = id → (world.update given s).Ends (some answer) s' →
    Served given (chronicle s).stored answer
  updateStatus : ∀ {given s answer s'}, given.id = id → (world.updateStatus given s).Ends (some answer) s' →
    Served given (chronicle s).stored answer

def idles : Event → Bool
  | .stepped _ _ _ (some answer) =>
      match answer.result with
      | .ok outcome => outcome = .done
      | .error _ => false
  | _ => true

def Idle (t : List (Moment σ)) : Prop :=
  ∀ moment ∈ t, idles moment.event = true

structure Agrees (v : Workspace) (version : Option String) (present : List Finalizer.Token) (l : Chronicle) : Prop where
  there : ∀ u, l.stored = some u →
    u.metadata.resourceVersion = version ∧ u.isBeingDeleted = true ∧ u.finalizers = present
  gone : l.stored = none ↔ present = [] ∧ v.finalizers ≠ []

structure Memory (id : ResourceId) (v : Workspace) (past : List (Subroutine σ)) (w : Workspace) : Prop where
  identity : w.id = id
  condemned : w.isBeingDeleted = true
  tokens : w.finalizers = spared past v.finalizers

structure Held (id : ResourceId) (v fetched : Workspace) (past : List (Subroutine σ)) (w : Workspace) (l : Chronicle) :
    Prop where
  read : fetched = v
  memory : Memory id v past w
  agrees : Agrees v w.metadata.resourceVersion w.finalizers l

def Turning (subs : List (Subroutine σ)) (id : ResourceId) (v fetched w : Workspace) (l : Chronicle)
    (sub : Subroutine σ) (todo : List (Subroutine σ)) : Prop :=
  ∃ past, subs = past ++ sub :: todo ∧ Held id v fetched past w l ∧ ∃ token ∈ sub.finalizers, token ∈ w.finalizers

def Releasing (subs : List (Subroutine σ)) (id : ResourceId) (v fetched w : Workspace) (l : Chronicle)
    (sub : Subroutine σ) (todo : List (Subroutine σ)) : Prop :=
  ∃ past, subs = past ++ sub :: todo ∧ fetched = v ∧ Memory id v (past ++ [sub]) w ∧
    Agrees v w.metadata.resourceVersion (spared past v.finalizers) l ∧ spared past v.finalizers ≠ []

-- What the reconcile leaves behind: the other tokens, or nothing if there were some and no others.
structure Cleared (subs : List (Subroutine σ)) (v : Workspace) (l : Chronicle) : Prop where
  there : ∀ u, l.stored = some u → u.finalizers = spared subs v.finalizers
  gone : l.stored = none ↔ spared subs v.finalizers = [] ∧ v.finalizers ≠ []

def Standing (subs : List (Subroutine σ)) (id : ResourceId) (v fetched w : Workspace) (l : Chronicle) :
    Stage σ → Prop
  | .opening => l.stored = some v
  | .sweeping todo outcome => outcome = .done ∧ ∃ past, subs = past ++ todo ∧ Held id v fetched past w l
  | .turning sub todo outcome | .stepping .finalize sub todo outcome =>
      outcome = .done ∧ Turning subs id v fetched w l sub todo
  | .cleaned sub todo outcome result =>
      outcome = .done ∧ result = .ok .done ∧ Turning subs id v fetched w l sub todo
  | .writing (.release sub todo outcome result) =>
      outcome = .done ∧ result = .ok .done ∧ Releasing subs id v fetched w l sub todo
  | .settled sub todo outcome result =>
      outcome = .done ∧ result = .ok .done ∧
        ∃ past, subs = past ++ sub :: todo ∧ Held id v fetched (past ++ [sub]) w l
  | .persisting (.outcome outcome) => outcome = .done ∧ Held id v fetched subs w l
  | .unlabelling outcome => outcome = .done ∧ fetched = v ∧ Cleared subs v l
  | .ended (.ok (.reconciled outcome)) => outcome = .done ∧ Cleared subs v l
  | _ => False

section

variable {subs past todo : List (Subroutine σ)} {sub : Subroutine σ} {id : ResourceId} {v fetched w w' : Workspace}
variable {version : Option String} {present : List Finalizer.Token} {l : Chronicle} {d : Deed}

theorem spared_snoc (past : List (Subroutine σ)) (sub : Subroutine σ) (present : List Finalizer.Token) :
    spared (past ++ [sub]) present = (spared past present).filter fun token => !sub.finalizers.contains token := by
  rw [spared, spared, List.filter_filter]
  refine List.filter_congr fun token _ => ?_
  simp [Bool.and_comm]

theorem spared_eq_nil_iff : spared subs present = [] ↔ ∀ token ∈ present, ∃ sub ∈ subs, token ∈ sub.finalizers := by
  simp [spared]

theorem result_of_idles {subroutine : String} {phase : Phase} {given : Workspace} {answer : StepAnswer}
    (idle : idles (.stepped subroutine phase given (some answer)) = true) : answer.result = .ok .done := by
  rcases result : answer.result with failure | outcome <;> simp_all [idles]

theorem Idle.before {t piece : List (Moment σ)} (idle : Idle (t ++ piece)) : Idle t :=
  fun moment member => idle moment (List.mem_append_left _ member)

theorem Memory.alike (memory : Memory id v past w) (same : w'.metadata = w.metadata) : Memory id v past w' := by
  refine ⟨?_, ?_, ?_⟩
  · rw [← memory.identity]
    simp only [Workspace.id, Workspace.displayName, same]
  · rw [← memory.condemned]
    simp only [Workspace.isBeingDeleted, same]
  · rw [← memory.tokens]
    simp only [Workspace.finalizers, same]

theorem Held.alike (held : Held id v fetched past w l) (same : w'.metadata = w.metadata) :
    Held id v fetched past w' l := by
  refine ⟨held.read, held.memory.alike same, ?_⟩
  simpa only [Workspace.finalizers, same] using held.agrees

theorem Held.pass (held : Held id v fetched past w l) (none : ∀ token ∈ sub.finalizers, token ∉ w.finalizers) :
    Held id v fetched (past ++ [sub]) w l := by
  refine ⟨held.read, ⟨held.memory.identity, held.memory.condemned, ?_⟩, held.agrees⟩
  rw [spared_snoc, ← held.memory.tokens]
  refine (List.filter_eq_self.mpr fun token member => ?_).symm
  simpa using fun mine => none token mine member

theorem Turning.alike (turning : Turning subs id v fetched w l sub todo) (same : w'.metadata = w.metadata) :
    Turning subs id v fetched w' l sub todo := by
  obtain ⟨past, order, held, token, mine, there⟩ := turning
  refine ⟨past, order, held.alike same, token, mine, ?_⟩
  rwa [SweepOrder.finalizers_of_metadata same]

theorem Turning.release {sub : Subroutine σ} (turning : Turning subs id v fetched w l sub todo) :
    Releasing subs id v fetched (w.releaseIfIdle sub.finalizers (.ok .done)).1 l sub todo := by
  obtain ⟨past, order, held, token, mine, there⟩ := turning
  have tokens : (w.releaseIfIdle sub.finalizers (.ok .done)).1.finalizers = spared (past ++ [sub]) v.finalizers := by
    rw [Workspace.finalizers_releaseIfIdle, spared_snoc, ← held.memory.tokens]
    simp [Finalizer.releaseIfIdle]
  have keeps {α : Type} (view : Workspace → α) (blind : ∀ w tokens, view (w.setFinalizers tokens) = view w) :
      view (w.releaseIfIdle sub.finalizers (.ok .done)).1 = view w :=
    Workspace.releaseIfIdle_keeps view blind _ _ w
  refine ⟨past, order, held.read, ⟨?_, ?_, tokens⟩, ?_, ?_⟩
  · exact (keeps Workspace.id fun _ _ => rfl).trans held.memory.identity
  · exact (keeps Workspace.isBeingDeleted fun _ _ => rfl).trans held.memory.condemned
  · rw [keeps (·.metadata.resourceVersion) fun _ _ => rfl, ← held.memory.tokens]
    exact held.agrees
  · rw [← held.memory.tokens]
    exact List.ne_nil_of_mem there

theorem Turning.changed (turning : Turning subs id v fetched w l sub todo) :
    (w.releaseIfIdle sub.finalizers (.ok .done)).2 = true := by
  obtain ⟨past, order, held, token, mine, there⟩ := turning
  rw [Workspace.changed_releaseIfIdle]
  by_contra unchanged
  have same := Finalizer.releaseIfIdle_of_unchanged (by simpa using unchanged)
  rw [← same] at there
  simp [Finalizer.releaseIfIdle, mine] at there

theorem stored_of_left {u : Workspace} (written : d.written = some u) :
    d.left = if d.leaves then none else some u := by
  rw [Deed.left, written]

theorem Releasing.update {stored : Workspace} (releasing : Releasing subs id v fetched w l sub todo)
    (linked : Chronicle.Linked (l ++ [d])) (effective : rules.update w (some (.ok stored)) d)
    (written : d.written = some stored) :
    ∃ past, subs = past ++ sub :: todo ∧ Held id v fetched (past ++ [sub]) (w.adoptVersion stored) (l ++ [d]) := by
  obtain ⟨past, order, read, memory, agrees, some⟩ := releasing
  obtain ⟨found, put, was, becomes, mark, tokens, leaves⟩ := effective
  obtain rfl : put = stored := Option.some.inj (becomes.symm.trans written)
  obtain ⟨_, deleted, _⟩ := agrees.there found (linked.found.symm.trans was)
  have left : Chronicle.stored (l ++ [d]) = if w.finalizers.isEmpty then none else .some put := by
    rw [Chronicle.stored_snoc, stored_of_left written, leaves, deleted, Bool.true_and]
  -- What is stored with the last token leaves, and `v` had one: that of the subroutine.
  refine ⟨past, order, read, ⟨memory.identity, memory.condemned, memory.tokens⟩, fun u there => ?_, ?_⟩
  · have same : put = u := by
      rw [left] at there
      split at there
      · simp at there
      · exact Option.some.inj there
    subst same
    exact ⟨rfl, mark.trans deleted, tokens⟩
  · have had : v.finalizers ≠ [] := by
      rintro none
      simp [spared, none] at some
    rw [left]
    change _ ↔ w.finalizers = [] ∧ _
    simp [had]

theorem Held.cleared (held : Held id v fetched subs w l) : Cleared subs v l :=
  ⟨fun u there => (held.agrees.there u there).2.2.trans held.memory.tokens, by
    rw [held.agrees.gone, held.memory.tokens]⟩

theorem Held.updateStatus {given : Workspace} {answer : Option (Except Error Workspace)}
    (held : Held id v fetched subs w l) (linked : Chronicle.Linked (l ++ [d]))
    (effective : rules.updateStatus given answer d) : Cleared subs v (l ++ [d]) := by
  obtain ⟨found, put, was, becomes, mark, tokens, stays⟩ := effective
  have before := linked.found.symm.trans was
  have left : Chronicle.stored (l ++ [d]) = some put := by
    rw [Chronicle.stored_snoc, stored_of_left becomes, stays, if_neg Bool.false_ne_true]
  have cleared := held.cleared
  refine ⟨fun u there => ?_, ?_⟩
  · obtain rfl := Option.some.inj (left.symm.trans there)
    exact tokens.trans (cleared.there found before)
  · rw [← cleared.gone, left, before]
    simp

end

section

variable {c : Cycle σ} {chronicle : σ → Chronicle} {id : ResourceId} {now : Timestamp} {v fetched w : Workspace}
variable {start s s' : σ} {t piece : List (Moment σ)} {stage : Stage σ}

theorem Reliable.answered {α : Type} {call : σ → Call σ α} {event : Option α → Event} {answer : Option α}
    (reliable : Reliable c.world id chronicle) (asked : Run.Asked c.world.cancelled call event s answer piece s') :
    ∃ value, answer = some value ∧ (call s).Ends (some value) s' := by
  rcases answer with _ | value
  · exact absurd asked.stopped (by simp [reliable.live])
  · exact ⟨value, rfl, asked.answered.2⟩

theorem held_of_read (recorded : Recorded c.manager c.world id chronicle rules)
    (there : (chronicle s).stored = some v) (condemned : v.isBeingDeleted = true)
    (asked : Run.Asked c.world.cancelled (c.world.get id) (.fetched id) s (some (.ok (some fetched))) piece s') :
    Held id v fetched ([] : List (Subroutine σ)) fetched (chronicle s') := by
  obtain ⟨⟨seen, early, late, answered⟩, named⟩ := recorded.get asked.answered.2
  have same : chronicle s' = chronicle s := (early.trans late).eq fun _ none => none
  have stored : some fetched = (chronicle s).stored := by
    rw [answered _ rfl, early.eq fun _ none => none]
  obtain rfl := Option.some.inj (stored.trans there)
  refine ⟨rfl, ⟨named _ rfl, condemned, by simp [spared]⟩, fun u found => ?_, ?_⟩
  · rw [same, there] at found
    obtain rfl := Option.some.inj found
    exact ⟨rfl, condemned, rfl⟩
  · rw [same, there]
    simp

theorem Held.persist {answer : Option (Except Error Workspace)}
    (held : Held id v fetched c.manager.subroutines w (chronicle s))
    (recorded : Recorded c.manager c.world id chronicle rules) (reliable : Reliable c.world id chronicle)
    (asked : Run.Asked c.world.cancelled (c.world.updateStatus w) (.statusUpdated w) s answer piece s') :
    Cleared c.manager.subroutines v (chronicle s') ∧
      ∀ error, answer.getD (.error .cancelled) = .error error → Vanished w error := by
  obtain ⟨value, rfl, ends⟩ := reliable.answered asked
  have served := reliable.updateStatus held.memory.identity ends
  have cleared : Cleared c.manager.subroutines v (chronicle s') := by
    rcases (recorded.updateStatus ends held.memory.identity).alone fun _ none => none with
      ⟨same, _⟩ | ⟨d, whole, effective, _⟩
    · rw [same]
      exact held.cleared
    · have linked := recorded.linked s'
      rw [whole] at linked ⊢
      exact held.updateStatus linked effective
  refine ⟨cleared, fun error failed => ?_⟩
  obtain rfl : value = .error error := failed
  rcases there : (chronicle s).stored with _ | u
  · rw [there] at served
    obtain ⟨_, ⟨⟩, missing⟩ := served
    exact ⟨isNotFound_iff.mp missing, held.memory.condemned, (held.agrees.gone.mp there).1⟩
  · rw [there] at served
    obtain ⟨_, impossible⟩ := served (held.agrees.there u there).1
    simp at impossible

theorem Releasing.asked {sub : Subroutine σ} {todo : List (Subroutine σ)} {answer : Option (Except Error Workspace)}
    (releasing : Releasing c.manager.subroutines id v fetched w (chronicle s) sub todo)
    (recorded : Recorded c.manager c.world id chronicle rules) (reliable : Reliable c.world id chronicle)
    (asked : Run.Asked c.world.cancelled (c.world.update w) (.updated w) s answer piece s') :
    ∃ stored, answer = some (.ok stored) ∧ ∃ past, c.manager.subroutines = past ++ sub :: todo ∧
      Held id v fetched (past ++ [sub]) (w.adoptVersion stored) (chronicle s') := by
  obtain ⟨value, rfl, ends⟩ := reliable.answered asked
  have ⟨past, _, _, memory, agrees, left⟩ := releasing
  have served := reliable.update memory.identity ends
  rcases there : (chronicle s).stored with _ | u
  · exact absurd (agrees.gone.mp there).1 left
  · rw [there] at served
    obtain ⟨stored, rfl⟩ := served (agrees.there u there).1
    refine ⟨stored, rfl, ?_⟩
    rcases (recorded.update ends memory.identity).alone fun _ none => none with
      ⟨_, refused⟩ | ⟨d, whole, effective, written⟩
    · exact absurd rfl (refused stored)
    · have linked := recorded.linked s'
      rw [whole] at linked ⊢
      exact releasing.update linked effective (written stored rfl)

theorem standing_of_course (steady : c.manager.StepsKeep Workspace.metadata)
    (recorded : Recorded c.manager c.world id chronicle rules) (reliable : Reliable c.world id chronicle)
    (there : (chronicle start).stored = some v) (condemned : v.isBeingDeleted = true)
    (course : Course c id now fetched start t stage w s) :
    Idle t → Standing c.manager.subroutines id v fetched w (chronicle s) stage := by
  -- Nothing fails, so only the stages of a clean-up come up, and the store follows the memory from write to write.
  induction course with
  | start => exact fun _ => there
  | note _ _ ih => exact fun idle => ih idle.before
  | unread _ asked answered _ =>
      obtain ⟨_, rfl, ends⟩ := reliable.answered asked
      obtain ⟨found, rfl⟩ := reliable.get ends
      simp at answered
  | absent _ asked ih =>
      intro idle
      obtain ⟨⟨seen, early, _, answered⟩, _⟩ := recorded.get asked.answered.2
      have missing := answered none rfl
      rw [early.eq fun _ none => none, ih idle.before] at missing
      simp at missing
  | skip _ asked _ due ih =>
      intro idle
      have held := held_of_read recorded (ih idle.before) condemned asked
      simp [skips, held.memory.condemned] at due
  | fetch _ asked _ _ ih =>
      intro idle
      have held := held_of_read recorded (ih idle.before) condemned asked
      exact ⟨rfl, [], rfl, held.alike (Cycle.metadata_amend ..)⟩
  | stop _ cancelled _ => simp [reliable.live] at cancelled
  | @pass _ sub _ _ _ _ _ _ skipped ih =>
      intro idle
      obtain ⟨done, past, order, held⟩ := ih idle
      refine ⟨done, past ++ [sub], by simp [order], held.pass fun token mine there => ?_⟩
      have turn : Sweep.isSkipped fetched.phase sub _ = false :=
        SweepOrder.isSkipped_eq_false_iff.mpr (.inr ⟨token, mine, there⟩)
      simp [skipped] at turn
  | enter _ _ turn ih =>
      intro idle
      obtain ⟨done, past, order, held⟩ := ih idle
      obtain ⟨token, mine, there⟩ := (SweepOrder.isSkipped_eq_false_iff.mp turn).resolve_left
        (by simp [held.read, condemned])
      have turning : Turning _ id v fetched _ _ _ _ := ⟨past, order, held, token, mine, there⟩
      exact ⟨done, turning.alike (Cycle.metadata_amend ..)⟩
  | condemned _ _ ih => exact fun idle => ih idle
  | equipped _ live _ ih | register _ live _ ih =>
      intro idle
      obtain ⟨_, _, _, held, _⟩ := ih idle
      simp [held.memory.condemned] at live
  | @step _ phase sub _ _ _ _ answer _ _ course asked ih =>
      intro idle
      have member := course.mem_of_agenda List.mem_cons_self
      obtain ⟨rfl, ends⟩ := asked.answered
      rw [(recorded.step sub member ends).eq fun _ none => none]
      cases phase with
      | process => exact (ih idle.before).elim
      | finalize =>
          obtain ⟨done, turning⟩ := ih idle.before
          have went := result_of_idles (idle _ (List.mem_append_right _ List.mem_cons_self))
          exact ⟨done, went, turning.alike (steady.asked member asked)⟩
  | drop _ asked _ => exact absurd asked.stopped (by simp [reliable.live])
  | keep _ unchanged ih =>
      intro idle
      obtain ⟨_, rfl, turning⟩ := ih idle
      simp [turning.changed] at unchanged
  | release _ _ ih =>
      intro idle
      obtain ⟨done, rfl, turning⟩ := ih idle
      exact ⟨done, rfl, turning.release⟩
  | @written _ purpose _ _ _ _ _ _ asked ih =>
      intro idle
      cases purpose with
      | register | unlabel => exact (ih idle.before).elim
      | release =>
          obtain ⟨done, went, releasing⟩ := ih idle.before
          obtain ⟨_, ⟨⟩, held⟩ := releasing.asked recorded reliable asked
          exact ⟨done, went, held⟩
  | @unwritten _ purpose _ _ _ _ _ _ _ asked answered ih =>
      intro idle
      cases purpose with
      | register | unlabel => exact (ih idle.before).elim
      | release =>
          obtain ⟨_, _, releasing⟩ := ih idle.before
          obtain ⟨_, rfl, _⟩ := releasing.asked recorded reliable asked
          simp at answered
  | @complete _ sub _ _ result _ _ _ ih =>
      intro idle
      obtain ⟨rfl, went, past, order, held⟩ := ih idle
      obtain rfl : result = .done := by simpa using went
      exact ⟨rfl, past ++ [sub], by simp [order], held.alike (Cycle.metadata_amend ..)⟩
  | fail _ ih =>
      intro idle
      obtain ⟨_, failed, _⟩ := ih idle.before
      simp at failed
  | report _ _ ih => exact fun idle => (ih idle.before).elim
  | conceal _ _ ih => exact fun idle => (ih idle).elim
  | abort _ ih => exact fun idle => (ih idle).elim
  | conclude _ _ ih =>
      intro idle
      obtain ⟨done, past, order, held⟩ := ih idle
      obtain rfl : c.manager.subroutines = past := by simpa using order
      exact ⟨done, held.alike (Cycle.metadata_amend ..)⟩
  | schedule _ due _ ih | beyond _ due _ ih =>
      intro idle
      obtain ⟨_, _, _, held⟩ := ih idle
      simp [schedules, Workspace.phase, held.read, condemned] at due
  | @unchanged _ verdict _ _ _ _ ih =>
      intro idle
      cases verdict with
      | outcome =>
          obtain ⟨done, held⟩ := ih idle
          exact ⟨done, held.read, held.cleared⟩
      | failure => exact (ih idle).elim
  | @persist _ verdict _ _ _ _ _ _ _ asked ih | @vanish _ verdict _ _ _ _ _ _ _ _ asked _ _ ih =>
      intro idle
      cases verdict with
      | outcome =>
          obtain ⟨done, held⟩ := ih idle.before
          exact ⟨done, held.read, (held.persist recorded reliable asked).1⟩
      | failure => exact (ih idle.before).elim
  | @refuse _ verdict _ _ _ _ _ _ _ _ asked answered lasting ih =>
      intro idle
      cases verdict with
      | outcome =>
          obtain ⟨_, held⟩ := ih idle.before
          simp [(held.persist recorded reliable asked).2 _ answered] at lasting
      | failure => exact (ih idle.before).elim
  | finish _ _ ih =>
      intro idle
      obtain ⟨done, _, cleared⟩ := ih idle
      exact ⟨done, cleared⟩
  | unlabel _ marked ih =>
      intro idle
      obtain ⟨_, read, _⟩ := ih idle
      simp [unlabels, Workspace.phase, read, condemned] at marked

end

section

variable {m : Manager σ} {world : World σ} {id : ResourceId} {chronicle : σ → Chronicle} {s : σ} {v : Workspace}

/-- A resource that is being deleted loses all tokens of the manager in one reconcile, if nothing comes in between and
every clean-up that is called for has nothing left to do. It is gone then if it had no others. -/
theorem deleted_at_once (statusOnly : m.StepsKeep fun w => (w.metadata, w.spec))
    (recorded : Recorded m world id chronicle rules) (reliable : Reliable world id chronicle)
    (there : (chronicle s).stored = some v) (condemned : v.isBeingDeleted = true)
    (idle : Idle (m.reconcile world id s).trace) :
    (m.reconcile world id s).value = .ok .done ∧
      (∀ left, (chronicle (m.reconcile world id s).state).stored = some left →
        left.finalizers = spared m.subroutines v.finalizers) ∧
      ((chronicle (m.reconcile world id s).state).stored = none ↔
        v.finalizers ≠ [] ∧ ∀ token ∈ v.finalizers, ∃ sub ∈ m.subroutines, token ∈ sub.finalizers) := by
  obtain ⟨now, fetched, left, course⟩ := m.attempt_course world id s
  obtain ⟨state, metrics, trace⟩ := m.reconcile_attempt world id s
  have steady : m.StepsKeep Workspace.metadata := fun sub member phase w s answer s' ends =>
    congrArg Prod.fst (statusOnly sub member phase w s answer s' ends)
  have before : (chronicle (world.correlate s).2).stored = some v := by
    rw [(recorded.correlate s).eq fun _ none => none, there]
  rw [trace] at idle
  have standing := standing_of_course steady recorded reliable before condemned course idle.before
  rw [m.value_reconcile, state]
  rcases ended : (m.attempt world id s).value with _ | _ | _ | outcome <;> rw [ended] at standing
  · exact standing.elim
  · exact standing.elim
  · exact standing.elim
  · obtain ⟨rfl, cleared⟩ := standing
    refine ⟨rfl, cleared.there, cleared.gone.trans ?_⟩
    rw [and_comm]
    exact and_congr_right fun _ => spared_eq_nil_iff

end

section

open Reconciler.Shelf

theorem served_of_writable {id : ResourceId} {shelf : Shelf id} {given : Workspace} {answer : Except Error Workspace}
    (same : given.id = id)
    (refused : ∀ error, shelf.versioned.writable given = .error error → answer = .error error)
    (passed : ∀ stored, shelf.versioned.writable given = .ok stored → ∃ written, answer = .ok written) :
    Served given shelf.stored answer := by
  have found : shelf.versioned.get? given.id = shelf.stored := by rw [get?_versioned, if_pos same]
  unfold Served
  split
  · rename_i v there
    intro version
    exact passed v (by simp [Versioned.writable, found, there, version])
  · rename_i there
    refine ⟨_, refused (shelf.versioned.refusal "NotFound" 404) ?_, rfl⟩
    simp [Versioned.writable, found, there]

theorem reliable_deserted (id : ResourceId) : Reliable (desertedWorld id) id Shelf.chronicle where
  live _ := rfl
  get := by
    intro s answer s' ends
    obtain ⟨same, _⟩ := Call.ends_done ends
    exact ⟨_, Option.some.inj same⟩
  update := by
    intro given s answer s' same ends
    simp only [desertedWorld, Versioned.update] at ends
    refine served_of_writable same (fun error found => ?_) (fun stored found => ?_)
    · rw [found] at ends
      exact Option.some.inj (Call.ends_done ends).1
    · rw [found] at ends
      exact ⟨_, Option.some.inj (Call.ends_done ends).1⟩
  updateStatus := by
    intro given s answer s' same ends
    simp only [desertedWorld, Versioned.updateStatus] at ends
    refine served_of_writable same (fun error found => ?_) (fun stored found => ?_)
    · rw [found] at ends
      exact Option.some.inj (Call.ends_done ends).1
    · rw [found] at ends
      exact ⟨_, Option.some.inj (Call.ends_done ends).1⟩

def movers : Manager (Shelf site) where
  operator := "converge"
  controller := "workspaces"
  subroutines := [worker "volume" ["volume", "shared"] leave leave, worker "proxy" ["shared"] leave leave,
    worker "dns" ["dns"] leave leave]
  conditions := true
  faultless := by decide

def occupied : Workspace :=
  Edit.apply (.condemn .epoch) (web.setFinalizers ["dns", "volume", "backup", "shared"])

def moved : Ran (Shelf site) (Except Stop Outcome) :=
  movers.reconcile (desertedWorld site) site (stocked occupied [] .epoch)

theorem deleted_at_once_but_for_the_backup :
    moved.value = .ok .done ∧ (∀ left, moved.state.stored = some left → left.finalizers = ["backup"]) ∧
      moved.state.stored ≠ none := by
  have answers : ∀ sub ∈ movers.subroutines, ∀ phase w s answer s', (sub.step phase w s).Ends answer s' →
      s' = s ∧ answer = some (leave w s) := by
    intro sub member phase w s answer s' ends
    simp only [movers, List.mem_cons, List.not_mem_nil, or_false] at member
    rcases member with rfl | rfl | rfl <;> simpa using answer_of_worker ends
  have steady : movers.StepsKeep fun w => (w.metadata, w.spec) := by
    intro sub member phase w s answer s' ends
    obtain rfl := Option.some.inj (answers sub member phase w s (some answer) s' ends).2
    rfl
  have recorded : Recorded movers (desertedWorld site) site Shelf.chronicle rules := by
    refine (recorded_deserted movers fun sub member phase w s answer s' ends =>
      (answers sub member phase w s answer s' ends).1).mono (fun _ none => none) ?_ ?_
    · rintro given answer d ⟨store, stored, found, _, _, written, leaves⟩
      exact ⟨stored, _, found, written, rfl, rfl, leaves⟩
    · rintro given answer d ⟨store, stored, found, _, _, written, stays⟩
      exact ⟨stored, _, found, written, rfl, rfl, stays⟩
  have there : (stocked occupied [] .epoch).chronicle.stored = some (occupied.setResourceVersion (some "1")) := by
    decide
  have idled : moved.trace.all (fun moment => idles moment.event) = true := by decide +kernel
  have idle : Idle moved.trace := List.all_eq_true.mp idled
  obtain ⟨done, kept, gone⟩ :=
    deleted_at_once steady recorded (reliable_deserted site) there (by decide) idle
  have tokens : spared movers.subroutines (occupied.setResourceVersion (some "1")).finalizers = ["backup"] := by decide
  refine ⟨done, fun left stored => (kept left stored).trans tokens, fun none => ?_⟩
  have declared := (gone.mp none).2 "backup" (by decide)
  exact absurd declared (by decide)

end

end Deletion

end Reconciler
