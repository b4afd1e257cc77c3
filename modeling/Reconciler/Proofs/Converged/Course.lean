import Reconciler.Proofs.Chronicle.Growth
import Reconciler.Proofs.Converged.Ledger

set_option autoImplicit false

namespace Reconciler

open Reconcile

variable {σ : Type}

namespace Converged

structure Merged (old new merged : Workspace.Status) : Prop where
  conditions : merged.conditions = new.conditions ∨ new.conditions = []
  provided : merged.provided = new.provided ∨ merged.provided = old.provided
  observed : merged.observedGeneration = new.observedGeneration ∨ merged.observedGeneration = old.observedGeneration
  next : merged.nextReconcile = new.nextReconcile ∨ merged.nextReconcile = old.nextReconcile

theorem Merged.eq_new {old new merged : Workspace.Status} (merge : Merged old new merged)
    (same : new = { old with conditions := new.conditions }) (full : new.conditions ≠ []) : merged = new := by
  obtain ⟨conditions, provided, observed, next⟩ := merge
  obtain ⟨_, _, _, _⟩ := merged
  obtain ⟨_, _, _, _⟩ := new
  simp_all

def rest (w : Workspace) : Workspace.Spec × Labels × List Finalizer.Token × Bool :=
  (w.spec, w.labels, w.finalizers, w.isBeingDeleted)

-- Nobody else is at the resource. A write of metadata puts finalizers in place, one of the status what is given of
-- it; nothing but a resource that is being deleted leaves the store by a write.
def rules : Rules where
  others _ := False
  update given _ d := ∃ stored, d.found = some stored ∧ (d.left = none → stored.isBeingDeleted = true) ∧
    ∀ left, d.left = some left → left.isBeingDeleted = stored.isBeingDeleted ∧
      left.currentStatus = stored.currentStatus ∧ left.finalizers = given.finalizers
  updateStatus given _ d := ∃ stored left, d.found = some stored ∧ d.left = some left ∧ rest left = rest stored ∧
    Merged stored.currentStatus given.currentStatus left.currentStatus

def Diligent (m : Manager σ) : Prop :=
  ∀ sub ∈ m.subroutines, ∀ w s answer s', (sub.process w s).Ends (some answer) s' →
    answer.workspace = w ∧ ∃ outcome, answer.result = .ok outcome ∧ outcome.isDone = true

def registered (held : List (Subroutine σ)) (present : List Finalizer.Token) : List Finalizer.Token :=
  held.foldl (fun present sub => (Finalizer.register sub.finalizers present).1) present

def Astray (subs : List (Subroutine σ)) (w : Workspace) : Prop :=
  ∃ sub ∈ subs, ∃ token ∈ sub.finalizers, token ∉ w.finalizers

def outlook (subs : List (Subroutine σ)) (now : Timestamp) (w : Workspace) : Workspace.Status :=
  { w.currentStatus with conditions := final now subs w.conditions }

def Brings (subs : List (Subroutine σ)) (now : Timestamp) (d : Deed) : Prop :=
  ∃ stored left, d.found = some stored ∧ d.left = some left ∧ rest left = rest stored ∧
    left.currentStatus = outlook subs now stored ∧ left.currentStatus ≠ stored.currentStatus

def Sparing (subs : List (Subroutine σ)) (now : Timestamp) (before : Chronicle) (fetched : Workspace)
    (l : Chronicle) : Prop :=
  Astray subs fetched ∨ ∃ more, l = before ++ more ∧ ∀ d ∈ more, Brings subs now d

def swept (now : Timestamp) (past : List (Subroutine σ)) (fetched : Workspace) : Ledger :=
  turned now past (Ledger.setUnknownIfAbsent now fetched.conditions).1

def amid (now : Timestamp) (past : List (Subroutine σ)) (sub : Subroutine σ) (fetched : Workspace) : Ledger :=
  (Ledger.processing now sub.name .process (swept now past fetched)).1

structure Memory (id : ResourceId) (fetched : Workspace) (held : List (Subroutine σ)) (ledger : Ledger)
    (w : Workspace) : Prop where
  identity : w.id = id
  live : w.isBeingDeleted = false
  tokens : w.finalizers = registered held fetched.finalizers
  status : w.currentStatus = { fetched.currentStatus with conditions := ledger }

structure Holds (subs : List (Subroutine σ)) (now : Timestamp) (before : Chronicle) (fetched : Workspace)
    (held : List (Subroutine σ)) (status : Workspace.Status) (l : Chronicle) : Prop where
  found : before.stored = some fetched
  stored : ∃ v, l.stored = some v ∧ v.isBeingDeleted = false ∧
    v.finalizers = registered held fetched.finalizers ∧ v.currentStatus = status
  sparing : Sparing subs now before fetched l

def Calm (m : Manager σ) (id : ResourceId) (now : Timestamp) (before : Chronicle) (fetched w : Workspace)
    (l : Chronicle) : Stage σ → Prop
  | .opening => l = before
  | .ended (.ok .notFound) => before.stored = none
  | .sweeping todo outcome => outcome.isDone = true ∧ ∃ past, m.subroutines = past ++ todo ∧
      Memory id fetched past (swept now past fetched) w ∧
      Holds m.subroutines now before fetched past fetched.currentStatus l
  | .turning sub todo outcome => outcome.isDone = true ∧ ∃ past, m.subroutines = past ++ sub :: todo ∧
      Memory id fetched past (amid now past sub fetched) w ∧
      Holds m.subroutines now before fetched past fetched.currentStatus l
  | .writing (.register sub todo outcome) => outcome.isDone = true ∧ ∃ past, m.subroutines = past ++ sub :: todo ∧
      Memory id fetched (past ++ [sub]) (amid now past sub fetched) w ∧
      Holds m.subroutines now before fetched past fetched.currentStatus l ∧ Astray m.subroutines fetched
  | .stepping .process sub todo outcome => outcome.isDone = true ∧ ∃ past, m.subroutines = past ++ sub :: todo ∧
      Memory id fetched (past ++ [sub]) (amid now past sub fetched) w ∧
      Holds m.subroutines now before fetched (past ++ [sub]) fetched.currentStatus l
  | .settled sub todo outcome result => outcome.isDone = true ∧ (∃ ask, result = .ok ask ∧ ask.isDone = true) ∧
      ∃ past, m.subroutines = past ++ sub :: todo ∧
      Memory id fetched (past ++ [sub]) (amid now past sub fetched) w ∧
      Holds m.subroutines now before fetched (past ++ [sub]) fetched.currentStatus l
  | .stepping .finalize .. | .cleaned .. | .writing (.release ..) | .writing (.unlabel _)
  | .ended (.ok (.skipped _)) => False
  | .persisting (.outcome _) =>
      Memory id fetched m.subroutines (final now m.subroutines fetched.conditions) w ∧
      Holds m.subroutines now before fetched m.subroutines fetched.currentStatus l
  | .unlabelling _ | .ended (.ok (.reconciled _)) =>
      Holds m.subroutines now before fetched m.subroutines (outlook m.subroutines now fetched) l
  | .failed .. | .persisting (.failure _) => Astray m.subroutines fetched ∧ before.stored = some fetched
  | .ended (.error _) => Sparing m.subroutines now before fetched l
  | .reporting _ next => Calm m id now before fetched w l next

def Modest (m : Manager σ) (now : Timestamp) (before : Chronicle) (fetched : Workspace) (event : Event) : Prop :=
  event.isWrite = true → before.stored = some fetched ∧ (Astray m.subroutines fetched ∨
    ∃ given answer, event = .statusUpdated given answer ∧
      given.currentStatus = outlook m.subroutines now fetched ∧
      outlook m.subroutines now fetched ≠ fetched.currentStatus)

section

variable {subs held : List (Subroutine σ)} {sub : Subroutine σ} {token : Finalizer.Token}
variable {present : List Finalizer.Token} {now : Timestamp} {before l l' : Chronicle} {w fetched given : Workspace}
variable {id : ResourceId} {ledger : Ledger} {status : Workspace.Status} {d : Deed}
variable {answer : Option (Except Error Workspace)}

theorem mem_registered : token ∈ registered held present ↔ token ∈ present ∨ ∃ sub ∈ held, token ∈ sub.finalizers := by
  induction held generalizing present with
  | nil => simp [registered]
  | cons first rest ih =>
      rw [show registered (first :: rest) present = registered rest (Finalizer.register first.finalizers present).1
        from rfl, ih, Finalizer.mem_register]
      simp [or_assoc]

theorem registered_snoc (held : List (Subroutine σ)) (sub : Subroutine σ) (present : List Finalizer.Token) :
    registered (held ++ [sub]) present = (Finalizer.register sub.finalizers (registered held present)).1 := by
  simp [registered]

theorem swept_snoc (now : Timestamp) (past : List (Subroutine σ)) (sub : Subroutine σ) (fetched : Workspace) :
    swept now (past ++ [sub]) fetched = (Ledger.complete now sub.name .process (amid now past sub fetched)).1 := by
  simp [swept, turned, amid, turn]

theorem Memory.alike {v : Workspace} (memory : Memory id fetched held ledger w) (identity : v.id = w.id)
    (live : v.isBeingDeleted = w.isBeingDeleted) (tokens : v.finalizers = w.finalizers)
    (status : v.currentStatus = w.currentStatus) : Memory id fetched held ledger v :=
  ⟨identity.trans memory.identity, live.trans memory.live, tokens.trans memory.tokens, status.trans memory.status⟩

theorem Memory.register (memory : Memory id fetched held ledger w) (sub : Subroutine σ) :
    Memory id fetched (held ++ [sub]) ledger (w.register sub.finalizers).1 := by
  refine ⟨memory.identity, memory.live, ?_, memory.status⟩
  rw [registered_snoc, ← memory.tokens]
  rfl

theorem Memory.amend {c : Cycle σ} (managed : c.manager.conditions = true) (memory : Memory id fetched held ledger w)
    (change : Ledger → Ledger × Bool) : Memory id fetched held (change ledger).1 (c.amend change w) := by
  have was : w.conditions = ledger := by rw [Workspace.conditions, memory.status]
  rw [Cycle.amend_of_conditions managed, was]
  refine ⟨memory.identity, memory.live, memory.tokens, ?_⟩
  rw [Workspace.setConditions, Workspace.currentStatus_modifyStatus, memory.status]

theorem astray_of_register (memory : Memory id fetched held ledger w) (member : sub ∈ subs)
    (changed : (w.register sub.finalizers).2 = true) : Astray subs fetched := by
  obtain ⟨token, mine, missing⟩ := Finalizer.exists_of_changed changed
  rw [memory.tokens] at missing
  exact ⟨sub, member, token, mine, fun there => missing (mem_registered.mpr (.inl there))⟩

theorem registered_unchanged (memory : Memory id fetched held ledger w)
    (unchanged : (w.register sub.finalizers).2 = false) :
    registered (held ++ [sub]) fetched.finalizers = registered held fetched.finalizers := by
  rw [registered_snoc, ← memory.tokens]
  exact Finalizer.register_of_unchanged unchanged

theorem nobody (drifts : Chronicle.Drifts rules.others l l') : l' = l :=
  drifts.eq fun _ => id

theorem one_deed {effect : Deed → Prop} (writes : Chronicle.Writes rules.others effect answer l l') :
    (l' = l ∧ ∀ stored, answer ≠ some (.ok stored)) ∨ ∃ d, l' = l ++ [d] ∧ effect d :=
  (writes.alone fun _ => id).imp_right fun ⟨d, whole, effective, _⟩ => ⟨d, whole, effective⟩

theorem Sparing.snoc (sparing : Sparing subs now before fetched l) (brings : Brings subs now d) :
    Sparing subs now before fetched (l ++ [d]) := by
  rcases sparing with astray | ⟨more, rfl, each⟩
  · exact .inl astray
  · refine .inr ⟨more ++ [d], by simp, fun e member => ?_⟩
    rcases List.mem_append.mp member with earlier | last
    · exact each e earlier
    · exact List.mem_singleton.mp last ▸ brings

theorem Holds.update (holds : Holds subs now before fetched held status l) (linked : Chronicle.Linked (l ++ [d]))
    (astray : Astray subs fetched) (effective : rules.update given answer d)
    (tokens : given.finalizers = registered (held ++ [sub]) fetched.finalizers) :
    Holds subs now before fetched (held ++ [sub]) status (l ++ [d]) := by
  obtain ⟨v, there, live, _, shown⟩ := holds.stored
  obtain ⟨found, was, leaves, becomes⟩ := effective
  rw [linked.found] at was
  obtain rfl : v = found := Option.some.inj (there.symm.trans was)
  refine ⟨holds.found, ?_, .inl astray⟩
  rcases left : d.left with _ | u
  · -- Only a resource that is being deleted leaves the store.
    simp [leaves left] at live
  · obtain ⟨still, same, put⟩ := becomes u left
    exact ⟨u, by rw [Chronicle.stored_snoc, left], still.trans live, put.trans tokens, same.trans shown⟩

theorem Holds.updateStatus (names : (subs.map (·.name)).Nodup)
    (holds : Holds subs now before fetched subs fetched.currentStatus l) (linked : Chronicle.Linked (l ++ [d]))
    (effective : rules.updateStatus given answer d) (shown : given.currentStatus = outlook subs now fetched)
    (differs : given.currentStatus ≠ fetched.currentStatus) :
    Holds subs now before fetched subs (outlook subs now fetched) (l ++ [d]) := by
  obtain ⟨v, there, live, tokens, same⟩ := holds.stored
  obtain ⟨found, left, was, becomes, kept, merged⟩ := effective
  rw [linked.found] at was
  obtain rfl : v = found := Option.some.inj (there.symm.trans was)
  have full : (outlook subs now fetched).conditions ≠ [] := by
    intro empty
    obtain ⟨since, ready⟩ := (settled_final now names fetched.conditions).ready
    rw [show final now subs fetched.conditions = [] from empty] at ready
    simp [Ledger.find?] at ready
  rw [same, shown] at merged
  have status : left.currentStatus = outlook subs now fetched := merged.eq_new rfl full
  have alike : outlook subs now v = outlook subs now fetched := by
    simp only [outlook, Workspace.conditions, same]
  simp only [rest, Prod.mk.injEq] at kept
  refine ⟨holds.found, ⟨left, by rw [Chronicle.stored_snoc, becomes], kept.2.2.2.trans live,
    kept.2.2.1.trans tokens, status⟩, holds.sparing.snoc ⟨v, left, ?_, becomes, ?_, status.trans alike.symm, ?_⟩⟩
  · rw [linked.found, there]
  · simp only [rest, Prod.mk.injEq]
    exact kept
  · rw [status, same, ← shown]
    exact differs

end

section

variable {c : Cycle σ} {chronicle : σ → Chronicle} {id : ResourceId} {now : Timestamp} {before : Chronicle}
variable {fetched : Workspace} {start s s' : σ} {t piece : List (Moment σ)} {w : Workspace} {stage : Stage σ}

theorem silent (chronicle : σ → Chronicle) {α : Type} {stop : σ → Bool} {call : σ → Call σ α}
    {event : Option α → Event} {answer : Option α} (asked : Run.Asked stop call event s answer piece s')
    (drifts : (call s).Ends answer s' → Chronicle.Drifts rules.others (chronicle s) (chronicle s')) :
    chronicle s' = chronicle s := by
  rcases asked.ends with ⟨_, _, rfl⟩ | ⟨_, ends⟩
  · rfl
  · exact nobody (drifts ends)

theorem Holds.persist {answer : Option (Except Error Workspace)}
    (holds : Holds c.manager.subroutines now before fetched c.manager.subroutines fetched.currentStatus (chronicle s))
    (recorded : Recorded c.manager c.world id chronicle rules)
    (memory : Memory id fetched c.manager.subroutines (final now c.manager.subroutines fetched.conditions) w)
    (differs : w.currentStatus ≠ fetched.currentStatus) (ends : (c.world.updateStatus w s).Ends answer s') :
    (chronicle s' = chronicle s ∧ ∀ stored, answer ≠ some (.ok stored)) ∨
      Holds c.manager.subroutines now before fetched c.manager.subroutines
        (outlook c.manager.subroutines now fetched) (chronicle s') := by
  rcases one_deed (recorded.updateStatus ends memory.identity) with idle | ⟨d, whole, effective⟩
  · exact .inl idle
  · have linked := recorded.linked s'
    rw [whole] at linked ⊢
    exact .inr (holds.updateStatus c.manager.names_nodup linked effective memory.status differs)

theorem calm_breakdown (subroutine : String) (error : Error) {l : Chronicle}
    (astray : Astray c.manager.subroutines fetched) (found : before.stored = some fetched) :
    Calm c.manager id now before fetched w l (.breakdown subroutine error) := by
  unfold Stage.breakdown
  split
  · exact .inl astray
  · exact ⟨astray, found⟩

theorem calm_of_course (managed : c.manager.conditions = true) (unspread : c.manager.spread = false)
    (diligent : Diligent c.manager) (recorded : Recorded c.manager c.world id chronicle rules)
    (live : ∀ w, (chronicle start).stored = some w → w.isBeingDeleted = false)
    (course : Course c id now fetched start t stage w s) :
    Calm c.manager id now (chronicle start) fetched w (chronicle s) stage := by
  -- With nobody else at the resource, only the writes of the course itself change it: one for each subroutine with a
  -- token that is not in place, and one of the status. The stages of a clean-up and of spreading do not come up.
  induction course with
  | start => rfl
  | note _ _ ih => exact ih
  -- Nothing was read, and nothing has been written.
  | unread _ asked _ ih =>
      have same : chronicle _ = chronicle start :=
        (silent chronicle asked fun ends => (recorded.get ends).1.drifts).trans ih
      exact .inr ⟨[], by simp [same], by simp⟩
  | absent _ asked ih =>
      obtain ⟨⟨seen, early, _, answered⟩, _⟩ := recorded.get asked.answered.2
      have nothing := answered _ rfl
      rw [nobody early, ih] at nothing
      exact nothing.symm
  | skip _ asked _ due ih => simp [Reconcile.skips, unspread] at due
  | @fetch _ w s _ s' _ asked _ _ ih =>
      obtain ⟨_, ends⟩ := asked.answered
      obtain ⟨⟨seen, early, late, answered⟩, named⟩ := recorded.get ends
      have same : chronicle s' = chronicle start := (nobody (early.trans late)).trans ih
      have found : (chronicle start).stored = some fetched := by
        rw [← same, nobody late]
        exact (answered _ rfl).symm
      have memory : Memory id fetched ([] : List (Subroutine σ)) fetched.conditions fetched :=
        ⟨named fetched rfl, live fetched found, rfl, rfl⟩
      refine ⟨rfl, [], rfl, memory.amend managed _, found, ?_, .inr ⟨[], by simp [same], by simp⟩⟩
      exact ⟨fetched, same ▸ found, live fetched found, rfl, rfl⟩
  | stop _ _ ih =>
      obtain ⟨_, _, _, _, holds⟩ := ih
      exact holds.sparing
  | pass _ _ skipped ih =>
      obtain ⟨_, _, _, _, holds⟩ := ih
      simp [Sweep.isSkipped, Workspace.phase, live fetched holds.found] at skipped
  | @enter _ sub _ _ _ _ _ _ _ ih =>
      obtain ⟨done, past, order, memory, holds⟩ := ih
      have phase : fetched.phase = .process := by simp [Workspace.phase, live fetched holds.found]
      exact ⟨done, past, order, phase ▸ memory.amend managed _, holds⟩
  | condemned _ deleted ih =>
      obtain ⟨_, _, _, memory, _⟩ := ih
      simp [memory.live] at deleted
  | @equipped _ sub _ _ _ _ _ _ unchanged ih =>
      obtain ⟨done, past, order, memory, holds⟩ := ih
      refine ⟨done, past, order, memory.register sub, holds.found, ?_, holds.sparing⟩
      rw [registered_unchanged memory unchanged]
      exact holds.stored
  | @register _ sub _ _ _ _ _ _ changed ih =>
      obtain ⟨done, past, order, memory, holds⟩ := ih
      exact ⟨done, past, order, memory.register sub, holds, astray_of_register memory (by simp [order]) changed⟩
  | @step _ phase sub _ _ _ _ answer _ _ course asked ih =>
      have member := course.mem_of_agenda List.mem_cons_self
      have same := silent chronicle asked (recorded.step _ member)
      cases phase with
      | process =>
          obtain ⟨done, past, order, memory, holds⟩ := ih
          obtain ⟨kept, went⟩ := diligent _ member _ _ _ _ asked.answered.2
          rw [same, kept]
          exact ⟨done, went, past, order, memory, holds⟩
      | finalize => exact ih.elim
  | @drop _ phase _ _ _ _ _ _ _ course asked ih =>
      have member := course.mem_of_agenda List.mem_cons_self
      have same := silent chronicle asked (recorded.step _ member)
      cases phase with
      | process =>
          obtain ⟨_, _, _, _, holds⟩ := ih
          rw [same]
          exact holds.sparing
      | finalize => exact ih.elim
  | keep _ _ ih => exact ih.elim
  | release _ _ ih => exact ih.elim
  | @written _ purpose w _ stored _ s' _ asked ih =>
      cases purpose with
      | register sub todo outcome =>
          obtain ⟨done, past, order, memory, holds, astray⟩ := ih
          rcases one_deed (recorded.update asked.answered.2 memory.identity) with ⟨_, refused⟩ | ⟨d, whole, effective⟩
          · exact absurd rfl (refused stored)
          · have linked := recorded.linked s'
            rw [whole] at linked ⊢
            exact ⟨done, past, order, memory.alike rfl rfl rfl rfl,
              holds.update linked astray effective memory.tokens⟩
      | release => exact ih.elim
      | unlabel => exact ih.elim
  | @unwritten _ purpose _ _ _ _ _ _ _ _ _ ih =>
      cases purpose with
      | register sub todo outcome =>
          obtain ⟨_, _, _, _, holds, astray⟩ := ih
          exact calm_breakdown sub.name _ astray holds.found
      | release => exact ih.elim
      | unlabel => exact ih.elim
  | @complete _ sub _ _ result _ _ _ ih =>
      obtain ⟨done, ⟨_, ⟨⟩, idle⟩, past, order, memory, holds⟩ := ih
      have phase : fetched.phase = .process := by simp [Workspace.phase, live fetched holds.found]
      -- The turn is over, and its subroutine joins those whose turns are.
      refine ⟨by simp [Outcome.isDone_merge, done, idle], past ++ [sub], by simp [order], ?_, holds⟩
      rw [if_pos idle, swept_snoc, phase]
      exact memory.amend managed _
  | fail _ ih =>
      obtain ⟨_, ⟨_, failed, _⟩, _⟩ := ih
      simp at failed
  | report _ _ ih =>
      rw [nobody (recorded.capture _ _ _)]
      exact ih
  | conceal _ _ ih => exact ih
  | abort _ ih => exact ih
  | conclude _ _ ih =>
      obtain ⟨done, past, order, memory, holds⟩ := ih
      obtain rfl : c.manager.subroutines = past := by simpa using order
      rw [if_pos done]
      exact ⟨memory.amend managed _, holds⟩
  | schedule _ due _ _ => simp [Reconcile.schedules, unspread] at due
  | beyond _ due _ _ => simp [Reconcile.schedules, unspread] at due
  | @unchanged _ verdict _ _ _ same ih =>
      cases verdict with
      | outcome outcome =>
          obtain ⟨memory, holds⟩ := ih
          have shown : fetched.currentStatus = outlook c.manager.subroutines now fetched :=
            same.symm.trans memory.status
          rw [shown] at holds
          exact holds
      | failure error => exact .inl ih.1
  | @persist _ verdict _ _ stored _ _ _ differs asked ih =>
      cases verdict with
      | outcome outcome =>
          obtain ⟨memory, holds⟩ := ih
          rcases holds.persist recorded memory differs asked.answered.2 with ⟨_, refused⟩ | wrote
          · exact absurd rfl (refused stored)
          · exact wrote
      | failure error => exact .inl ih.1
  | @vanish _ verdict _ _ _ _ _ _ _ _ _ _ gone ih =>
      cases verdict with
      | outcome outcome =>
          have deleted := gone.deleted
          simp [ih.1.live] at deleted
      | failure error => exact .inl ih.1
  | @refuse _ verdict _ _ _ _ _ _ _ differs asked _ _ ih =>
      cases verdict with
      | outcome outcome =>
          obtain ⟨memory, holds⟩ := ih
          rcases asked.ends with ⟨_, _, rfl⟩ | ⟨_, ends⟩
          · exact holds.sparing
          · -- The answer is lost, or an error, and the status may have been written nevertheless.
            rcases holds.persist recorded memory differs ends with ⟨same, _⟩ | wrote
            · exact same ▸ holds.sparing
            · exact wrote.sparing
      | failure error => exact .inl ih.1
  | finish _ _ ih => exact ih
  | unlabel _ marked _ => simp [Reconcile.unlabels, unspread] at marked

theorem modest_of_course (managed : c.manager.conditions = true) (unspread : c.manager.spread = false)
    (diligent : Diligent c.manager) (recorded : Recorded c.manager c.world id chronicle rules)
    (live : ∀ w, (chronicle start).stored = some w → w.isBeingDeleted = false)
    (course : Course c id now fetched start t stage w s) :
    Throughout (fun _ moment => Modest c.manager now (chronicle start) fetched moment.event) t := by
  have calm {t : List (Moment σ)} {stage : Stage σ} {w : Workspace} {s : σ}
      (course : Course c id now fetched start t stage w s) :
      Calm c.manager id now (chronicle start) fetched w (chronicle s) stage :=
    calm_of_course managed unspread diligent recorded live course
  -- A write is looked at where the course stands before it, and there the resource is as `Calm` says.
  have metadata {t : List (Moment σ)} {purpose : Purpose σ} {w : Workspace} {s : σ}
      (course : Course c id now fetched start t (.writing purpose) w s) (event : Event) :
      Modest c.manager now (chronicle start) fetched event := by
    have there := calm course
    cases purpose with
    | register sub todo outcome =>
        obtain ⟨_, _, _, _, holds, astray⟩ := there
        exact fun _ => ⟨holds.found, .inl astray⟩
    | release => exact there.elim
    | unlabel => exact there.elim
  have status {t : List (Moment σ)} {verdict : Verdict} {w : Workspace} {s : σ}
      (course : Course c id now fetched start t (.persisting verdict) w s)
      (differs : w.currentStatus ≠ fetched.currentStatus) (answer : Option (Except Error Workspace)) :
      Modest c.manager now (chronicle start) fetched (.statusUpdated w answer) := by
    have there := calm course
    cases verdict with
    | outcome outcome =>
        obtain ⟨memory, holds⟩ := there
        exact fun _ => ⟨holds.found,
          .inr ⟨w, answer, rfl, memory.status, fun same => differs (memory.status.trans same)⟩⟩
    | failure error => exact fun _ => ⟨there.2, .inl there.1⟩
  have other {event : Event} (call : event.isWrite = false) : Modest c.manager now (chronicle start) fetched event := by
    simp [Modest, call]
  induction course with
  | start => exact .nil
  | note _ _ ih => exact ih.snoc (other rfl)
  | unread _ asked _ ih => exact ih.asked asked (other rfl)
  | absent _ asked ih => exact ih.asked asked (other rfl)
  | skip _ asked _ _ ih => exact ih.asked asked (other rfl)
  | fetch _ asked _ _ ih => exact ih.asked asked (other rfl)
  | step _ asked ih => exact ih.asked asked (other rfl)
  | drop _ asked ih => exact ih.asked asked (other rfl)
  | written course asked ih => exact ih.asked asked (metadata course _)
  | unwritten course asked _ ih => exact ih.asked asked (metadata course _)
  | fail _ ih => exact ih.snoc (other rfl)
  | report _ _ ih => exact ih.snoc (other rfl)
  | persist course differs asked ih => exact ih.asked asked (status course differs _)
  | vanish course differs asked _ _ ih => exact ih.asked asked (status course differs _)
  | refuse course differs asked _ _ ih => exact ih.asked asked (status course differs _)
  | _ => assumption

end

end Converged

end Reconciler
