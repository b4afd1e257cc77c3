import Reconciler.Proofs.Chronicle.Growth
import Reconciler.Proofs.Chronicle.Shelf

set_option autoImplicit false

namespace Reconciler

open Reconcile

variable {σ : Type}

namespace Pending

def terms (w : Workspace) : Option Int64 × Option Timestamp :=
  (w.currentStatus.observedGeneration, w.currentStatus.nextReconcile)

def sketch (w : Workspace) : (Option Int64 × Option Timestamp) × Labels × Bool :=
  (terms w, w.labels, w.isBeingDeleted)

-- The plan is still the same. There may be another generation, but not one that would count as observed.
structure Kept (v w : Workspace) : Prop where
  terms : terms w = terms v
  deletion : w.isBeingDeleted = v.isBeingDeleted
  generation : Spread.generationObserved w = true → Spread.generationObserved v = true

-- A write of metadata puts labels in place, one of the status what that says of the schedule. Nothing but a resource
-- that is being deleted leaves the store by a write.
def rules : Rules where
  others _ := True
  update given _ d := ∃ stored, d.found = some stored ∧ (d.left = none → stored.isBeingDeleted = true) ∧
    ∀ left, d.left = some left → Kept stored left ∧ left.labels = given.labels
  updateStatus given _ d := ∃ stored left, d.found = some stored ∧ d.left = some left ∧
    left.generation = stored.generation ∧ left.isBeingDeleted = stored.isBeingDeleted ∧ left.labels = stored.labels ∧
    -- What is absent may also stay as it was.
    ((terms left).1 = (terms given).1 ∨ (terms left).1 = (terms stored).1) ∧
    ((terms left).2 = (terms given).2 ∨ (terms left).2 = (terms stored).2)

def Unfinished (ran : Ran σ (Except Stop Finished)) : Prop :=
  ∃ outcome, ran.value = .ok (.reconciled outcome) ∧ outcome.isDone = false

def Failed (ran : Ran σ (Except Stop Finished)) : Prop :=
  ∃ name failure, ran.value = .error (.error (.subroutine name failure)) ∧
    ∃ moment ∈ ran.trace, ∃ phase given answer, moment.event = .stepped name phase given (some answer) ∧
      answer.result = .error failure

def Alone (chronicle : σ → Chronicle) (id : ResourceId) (fetched : Workspace) (t : List (Moment σ)) (l : Chronicle) :
    Prop :=
  ∃ read, Finds id t read fetched ∧ (chronicle read.after).stored = some fetched ∧
    ∃ mine, l = chronicle read.after ++ mine ∧ ∀ d ∈ mine, d.own = true

def fails : Event → Bool
  | .stepped _ _ _ (some answer) =>
      match answer.result with
      | .ok _ => false
      | .error _ => true
  | _ => false

def Smooth (t : List (Moment σ)) : Prop :=
  ∀ moment ∈ t, fails moment.event = false

def Planned (fetched : Workspace) (l : Chronicle) : Prop :=
  ∃ stored, l.stored = some stored ∧ Kept fetched stored

def Labelled (fetched : Workspace) (l : Chronicle) : Prop :=
  ∃ stored, l.stored = some stored ∧ Kept fetched stored ∧ stored.labels = fetched.labels

structure Stands (fetched w : Workspace) (l : Chronicle) : Prop where
  labelled : Labelled fetched l
  terms : terms w = terms fetched
  labels : w.labels = fetched.labels

def Known (fetched : Workspace) (t : List (Moment σ)) (w : Workspace) (l : Chronicle) : Stage σ → Prop
  | .sweeping .. | .turning .. | .stepping .. | .writing (.register ..) | .writing (.release ..) =>
      Smooth t ∧ Stands fetched w l
  | .cleaned _ _ _ result | .settled _ _ _ result =>
      (∀ outcome, result = .ok outcome → Smooth t) ∧ Stands fetched w l
  | .failed .. | .persisting (.failure _) => Stands fetched w l
  | .persisting (.outcome outcome) | .unlabelling outcome =>
      Smooth t ∧ (outcome.isDone = false → Stands fetched w l)
  | .writing (.unlabel outcome) => Smooth t ∧ (outcome.isDone = false → Planned fetched l)
  | .ended (.ok (.reconciled outcome)) => outcome.isDone = false → Planned fetched l
  | .ended (.error _) => ¬Smooth t → Labelled fetched l
  | .opening => Smooth t
  | .ended (.ok _) => True
  | .reporting _ next => Known fetched t w l next

section

variable {c : Cycle σ} {chronicle : σ → Chronicle} {id : ResourceId} {now : Timestamp} {fetched : Workspace}
variable {start s s' : σ} {t piece : List (Moment σ)} {w w' : Workspace} {stage : Stage σ} {moment : Moment σ}
variable {l l' : Chronicle} {others effect : Deed → Prop} {answer : Option (Except Error Workspace)}

theorem Alone.earlier (alone : Alone chronicle id fetched (t ++ piece) l)
    (other : ∀ moment ∈ piece, ∀ answer, moment.event ≠ .fetched id answer) : Alone chronicle id fetched t l := by
  obtain ⟨read, ⟨member, found⟩, rest⟩ := alone
  rcases List.mem_append.mp member with earlier | last
  · exact ⟨read, ⟨earlier, found⟩, rest⟩
  · exact absurd found (other read last _)

theorem Alone.before (alone : Alone chronicle id fetched t l') (grown : Grown chronicle others id start t l)
    {more : Chronicle} (whole : l' = l ++ more) :
    Alone chronicle id fetched t l ∧ ∀ d ∈ more, d.own = true := by
  obtain ⟨read, finds, stored, mine, rfl, own⟩ := alone
  obtain ⟨between, rfl⟩ := grown.past read finds.1
  obtain rfl : mine = between ++ more := by simpa using whole
  exact ⟨⟨read, finds, stored, between, rfl, fun d member => own d (List.mem_append_left _ member)⟩,
    fun d member => own d (List.mem_append_right _ member)⟩

theorem eq_nil_of_own {more : Chronicle} (own : ∀ d ∈ more, d.own = true) (foreign : ∀ d ∈ more, d.own = false) :
    more = [] := by
  refine List.eq_nil_iff_forall_not_mem.mpr fun d member => ?_
  have mine := own d member
  rw [foreign d member] at mine
  simp at mine

theorem Alone.drift (alone : Alone chronicle id fetched t l') (grown : Grown chronicle others id start t l)
    (drifts : Chronicle.Drifts others l l') : Alone chronicle id fetched t l ∧ l' = l := by
  obtain ⟨more, whole, foreign⟩ := drifts
  obtain ⟨before, own⟩ := alone.before grown whole
  obtain rfl := eq_nil_of_own own fun d member => (foreign d member).1
  exact ⟨before, by simpa using whole⟩

theorem Alone.write (alone : Alone chronicle id fetched t l') (grown : Grown chronicle others id start t l)
    (writes : Chronicle.Writes others effect answer l l') :
    Alone chronicle id fetched t l ∧
      (l' = l ∧ (∀ stored, answer ≠ some (.ok stored)) ∨ ∃ d, l' = l ++ [d] ∧ effect d) := by
  cases writes with
  | idle drifts refused =>
      obtain ⟨before, same⟩ := alone.drift grown drifts
      exact ⟨before, .inl ⟨same, refused⟩⟩
  | done past d early _ effective _ late =>
      obtain ⟨first, rfl, foreign⟩ := early
      obtain ⟨last, rfl, alien⟩ := late
      obtain ⟨before, own⟩ := alone.before grown (show _ = l ++ (first ++ d :: last) by simp)
      obtain rfl := eq_nil_of_own (fun e member => own e (by simp [member])) fun e member => (foreign e member).1
      obtain rfl := eq_nil_of_own (fun e member => own e (by simp [member])) fun e member => (alien e member).1
      exact ⟨before, .inr ⟨d, by simp, effective⟩⟩

theorem Alone.stored (alone : Alone chronicle id fetched (t ++ [moment]) l)
    (unread : ∀ earlier ∈ t, earlier.event.isCall = false) : (chronicle moment.after).stored = some fetched := by
  obtain ⟨read, ⟨member, found⟩, stored, _⟩ := alone
  rcases List.mem_append.mp member with earlier | last
  · exact absurd found (ne_fetched_of_quiet (unread read earlier) _)
  · obtain rfl := List.mem_singleton.mp last
    exact stored

theorem sketch_amend (change : Ledger → Ledger × Bool) (w : Workspace) : sketch (c.amend change w) = sketch w := by
  unfold Cycle.amend
  split <;> rfl

theorem sketch_register (tokens : List Finalizer.Token) (w : Workspace) : sketch (w.register tokens).1 = sketch w :=
  rfl

theorem sketch_releaseIfIdle (tokens : List Finalizer.Token) (result : Except OperatorError Outcome) (w : Workspace) :
    sketch (w.releaseIfIdle tokens result).1 = sketch w :=
  Workspace.releaseIfIdle_keeps sketch (fun _ _ => rfl) tokens result w

theorem Kept.refl (v : Workspace) : Kept v v := ⟨rfl, rfl, fun observed => observed⟩

theorem Kept.trans {v : Workspace} (first : Kept v w) (second : Kept w w') : Kept v w' :=
  ⟨second.terms.trans first.terms, second.deletion.trans first.deletion,
    fun observed => first.generation (second.generation observed)⟩

theorem Labelled.planned (labelled : Labelled fetched l) : Planned fetched l := by
  obtain ⟨stored, there, kept, _⟩ := labelled
  exact ⟨stored, there, kept⟩

theorem Stands.alike (stands : Stands fetched w l) (same : sketch w' = sketch w) : Stands fetched w' l := by
  simp only [sketch, Prod.mk.injEq] at same
  exact ⟨stands.labelled, same.1.trans stands.terms, same.2.1.trans stands.labels⟩

theorem Smooth.append (smooth : Smooth t) (more : ∀ moment ∈ piece, fails moment.event = false) :
    Smooth (t ++ piece) := by
  intro moment member
  rcases List.mem_append.mp member with earlier | last
  · exact smooth moment earlier
  · exact more moment last

theorem Planned.update {d : Deed} (planned : Planned fetched l) (live : fetched.isBeingDeleted = false)
    (linked : Chronicle.Linked (l ++ [d])) (effective : rules.update w answer d) :
    ∃ left, Chronicle.stored (l ++ [d]) = some left ∧ Kept fetched left ∧ left.labels = w.labels := by
  obtain ⟨stored, there, kept⟩ := planned
  obtain ⟨found, was, leaves, becomes⟩ := effective
  rw [linked.found] at was
  obtain rfl : stored = found := Option.some.inj (there.symm.trans was)
  rcases left : d.left with _ | v
  · -- Only a resource that is being deleted leaves the store.
    have deleted := leaves left
    rw [kept.deletion, live] at deleted
    simp at deleted
  · obtain ⟨same, labels⟩ := becomes v left
    exact ⟨v, by rw [Chronicle.stored_snoc, left], kept.trans same, labels⟩

theorem Stands.update {d : Deed} (stands : Stands fetched w l) (live : fetched.isBeingDeleted = false)
    (linked : Chronicle.Linked (l ++ [d])) (effective : rules.update w answer d) : Stands fetched w (l ++ [d]) := by
  obtain ⟨left, remains, kept, labelled⟩ := stands.labelled.planned.update live linked effective
  exact ⟨⟨left, remains, kept, labelled.trans stands.labels⟩, stands.terms, stands.labels⟩

theorem Stands.updateStatus {d : Deed} (stands : Stands fetched w l) (linked : Chronicle.Linked (l ++ [d]))
    (effective : rules.updateStatus w answer d) : Stands fetched w (l ++ [d]) := by
  refine ⟨?_, stands.terms, stands.labels⟩
  obtain ⟨stored, there, kept, labelled⟩ := stands.labelled
  obtain ⟨found, left, was, stays, generation, deletion, labels, observed, scheduled⟩ := effective
  rw [linked.found] at was
  obtain rfl : stored = found := Option.some.inj (there.symm.trans was)
  -- The status in memory says the same of the schedule as the one that is stored.
  have same : Pending.terms left = Pending.terms stored := by
    rw [stands.terms, kept.terms, or_self] at observed scheduled
    exact (Prod.ext observed scheduled).trans kept.terms.symm
  refine ⟨left, by rw [Chronicle.stored_snoc, stays], kept.trans ⟨same, deletion, ?_⟩, labels.trans labelled⟩
  simp only [Pending.terms, Prod.mk.injEq] at same
  simp [Spread.generationObserved, same, generation]

theorem Alone.update (recorded : Recorded c.manager c.world id chronicle rules)
    (live : fetched.isBeingDeleted = false) (grown : Grown chronicle rules.others id start t (chronicle s))
    (asked : Run.Asked c.world.cancelled (c.world.update w) (.updated w) s answer piece s')
    (alone : Alone chronicle id fetched (t ++ piece) (chronicle s')) :
    Alone chronicle id fetched t (chronicle s) ∧
      (Planned fetched (chronicle s) → Planned fetched (chronicle s')) ∧
      (Stands fetched w (chronicle s) → Stands fetched w (chronicle s')) := by
  rcases asked.ends with ⟨_, rfl, rfl⟩ | ⟨rfl, ends⟩
  · exact ⟨by simpa using alone, fun planned => planned, fun stands => stands⟩
  · have before := alone.earlier (by simp)
    by_cases here : w.id = id
    · obtain ⟨earlier, ⟨same, _⟩ | ⟨d, whole, effective⟩⟩ := before.write grown (recorded.update ends here)
      · exact ⟨earlier, fun planned => same ▸ planned, fun stands => same ▸ stands⟩
      · have linked := recorded.linked s'
        rw [whole] at linked ⊢
        refine ⟨earlier, fun planned => ?_, fun stands => stands.update live linked effective⟩
        obtain ⟨left, remains, kept, _⟩ := planned.update live linked effective
        exact ⟨left, remains, kept⟩
    · obtain ⟨earlier, same⟩ := before.drift grown (recorded.elsewhere here (.inl ends))
      exact ⟨earlier, fun planned => same ▸ planned, fun stands => same ▸ stands⟩

theorem Alone.updateStatus (recorded : Recorded c.manager c.world id chronicle rules)
    (grown : Grown chronicle rules.others id start t (chronicle s))
    (asked : Run.Asked c.world.cancelled (c.world.updateStatus w) (.statusUpdated w) s answer piece s')
    (alone : Alone chronicle id fetched (t ++ piece) (chronicle s')) :
    Alone chronicle id fetched t (chronicle s) ∧
      (Stands fetched w (chronicle s) → Stands fetched w (chronicle s')) := by
  rcases asked.ends with ⟨_, rfl, rfl⟩ | ⟨rfl, ends⟩
  · exact ⟨by simpa using alone, fun stands => stands⟩
  · have before := alone.earlier (by simp)
    by_cases here : w.id = id
    · obtain ⟨earlier, ⟨same, _⟩ | ⟨d, whole, effective⟩⟩ := before.write grown (recorded.updateStatus ends here)
      · exact ⟨earlier, fun stands => same ▸ stands⟩
      · have linked := recorded.linked s'
        rw [whole] at linked ⊢
        exact ⟨earlier, fun stands => stands.updateStatus linked effective⟩
    · obtain ⟨earlier, same⟩ := before.drift grown (recorded.elsewhere here (.inr ends))
      exact ⟨earlier, fun stands => same ▸ stands⟩

theorem known_of_stands (smooth : Smooth t) (stands : Stands fetched w l) : Known fetched t w l stage := by
  have labelled := stands.labelled
  induction stage with
  | opening => exact smooth
  | sweeping | turning | stepping => exact ⟨smooth, stands⟩
  | cleaned | settled => exact ⟨fun _ _ => smooth, stands⟩
  | failed => exact stands
  | writing purpose =>
      cases purpose with
      | register | release => exact ⟨smooth, stands⟩
      | unlabel => exact ⟨smooth, fun _ => labelled.planned⟩
  | persisting verdict =>
      cases verdict with
      | outcome => exact ⟨smooth, fun _ => stands⟩
      | failure => exact stands
  | unlabelling => exact ⟨smooth, fun _ => stands⟩
  | ended result =>
      rcases result with _ | _ | _ | _
      · exact fun _ => labelled
      · trivial
      · trivial
      · exact fun _ => labelled.planned
  | reporting _ _ ih => exact ih

theorem Known.append (known : Known fetched t w l stage) (more : ∀ moment ∈ piece, fails moment.event = false) :
    Known fetched (t ++ piece) w l stage := by
  induction stage with
  | opening => exact Smooth.append known more
  | sweeping | turning | stepping => exact ⟨known.1.append more, known.2⟩
  | cleaned | settled => exact ⟨fun outcome went => (known.1 outcome went).append more, known.2⟩
  | failed => exact known
  | writing purpose =>
      cases purpose with
      | register | release | unlabel => exact ⟨known.1.append more, known.2⟩
  | persisting verdict =>
      cases verdict with
      | outcome => exact ⟨known.1.append more, known.2⟩
      | failure => exact known
  | unlabelling => exact ⟨known.1.append more, known.2⟩
  | ended result =>
      rcases result with _ | _ | _ | _
      · exact fun rough => known fun smooth => rough (Smooth.append smooth more)
      · trivial
      · trivial
      · exact known
  | reporting _ _ ih => exact ih known

theorem gentle_of_asked {α : Type} {stop : σ → Bool} {call : σ → Call σ α} {event : Option α → Event}
    {answer : Option α} (asked : Run.Asked stop call event s answer piece s') (gentle : fails (event answer) = false) :
    ∀ moment ∈ piece, fails moment.event = false := by
  rcases asked.ends with ⟨_, rfl, _⟩ | ⟨rfl, _⟩
  · simp
  · simpa using gentle

theorem Alone.asked {α : Type} {stop : σ → Bool} {call : σ → Call σ α} {event : Option α → Event} {answer : Option α}
    (alone : Alone chronicle id fetched (t ++ piece) (chronicle s'))
    (grown : Grown chronicle others id start t (chronicle s)) (asked : Run.Asked stop call event s answer piece s')
    (drifts : (call s).Ends answer s' → Chronicle.Drifts others (chronicle s) (chronicle s'))
    (other : ∀ answer found, event answer ≠ .fetched id found) :
    Alone chronicle id fetched t (chronicle s) ∧ chronicle s' = chronicle s := by
  rcases asked.ends with ⟨_, rfl, rfl⟩ | ⟨rfl, ends⟩
  · exact ⟨by simpa using alone, rfl⟩
  · exact (alone.earlier (by simpa using other answer)).drift grown (drifts ends)

theorem Alone.past {α : Type} {stop : σ → Bool} {call : σ → Call σ α} {event : Option α → Event} {answer : Option α}
    (alone : Alone chronicle id fetched (t ++ piece) (chronicle s'))
    (grown : Grown chronicle others id start t (chronicle s)) (asked : Run.Asked stop call event s answer piece s')
    (grows : (call s).Ends answer s' → chronicle s <+: chronicle s')
    (other : ∀ answer found, event answer ≠ .fetched id found) : Alone chronicle id fetched t (chronicle s) := by
  rcases asked.ends with ⟨_, rfl, rfl⟩ | ⟨rfl, ends⟩
  · simpa using alone
  · obtain ⟨more, whole⟩ := grows ends
    exact ((alone.earlier (by simpa using other answer)).before grown whole.symm).1

theorem Alone.written {stop : σ → Bool} {call : σ → Call σ (Except Error Workspace)}
    {event : Option (Except Error Workspace) → Event} {stored : Workspace}
    (alone : Alone chronicle id fetched (t ++ piece) (chronicle s'))
    (grown : Grown chronicle others id start t (chronicle s))
    (asked : Run.Asked stop call event s (some (.ok stored)) piece s')
    (writes : (call s).Ends (some (.ok stored)) s' →
      Chronicle.Writes others effect (some (.ok stored)) (chronicle s) (chronicle s'))
    (other : ∀ answer found, event answer ≠ .fetched id found) :
    ∃ d, chronicle s' = chronicle s ++ [d] ∧ effect d := by
  obtain ⟨rfl, ends⟩ := asked.answered
  obtain ⟨_, ⟨_, refused⟩ | done⟩ := (alone.earlier (by simpa using other _)).write grown (writes ends)
  · exact absurd rfl (refused stored)
  · exact done

theorem smooth_of_quiet (quiet : ∀ moment ∈ t, moment.event.isCall = false) : Smooth t := by
  intro moment member
  have still := quiet moment member
  cases event : moment.event <;> simp_all [fails, Event.isCall]

theorem known_of_course (recorded : Recorded c.manager c.world id chronicle rules)
    (steady : c.manager.StepsKeep sketch) (live : fetched.isBeingDeleted = false)
    (course : Course c id now fetched start t stage w s) (alone : Alone chronicle id fetched t (chronicle s)) :
    Known fetched t w (chronicle s) stage := by
  -- Step by step. Nobody was there before a step if nobody is there after it, so every case may use its hypothesis;
  -- only the read has none, and is where all of this begins to hold.
  induction course with
  | start => simp [Known, Smooth]
  | note record _ ih => exact (ih (alone.earlier (by simp))).append (by simp [fails])
  | unread course asked answered _ =>
      -- The read has failed, so there is none to be alone after.
      obtain ⟨read, found, _⟩ := alone
      refine absurd found ((fetched_of_asked course.outset asked).2 ?_ read fetched)
      rintro w rfl
      simp at answered
  | absent | skip => trivial
  | @fetch t _ _ _ _ course asked _ _ _ =>
      have unread : ∀ moment ∈ t, moment.event.isCall = false := course.outset
      refine known_of_stands ((smooth_of_quiet unread).append (gentle_of_asked asked rfl))
        (Stands.alike ⟨?_, rfl, rfl⟩ (sketch_amend _ _))
      obtain ⟨rfl, _⟩ := asked.answered
      exact ⟨fetched, alone.stored unread, .refl _, rfl⟩
  | stop _ _ ih => exact known_of_stands (ih alone).1 (ih alone).2
  | pass _ _ _ ih => exact ih alone
  | enter _ _ _ ih => exact ⟨(ih alone).1, (ih alone).2.alike (sketch_amend _ _)⟩
  | condemned _ _ ih => exact ih alone
  | equipped _ _ _ ih => exact ⟨(ih alone).1, (ih alone).2.alike (sketch_register _ _)⟩
  | register _ _ _ ih => exact ⟨(ih alone).1, (ih alone).2.alike (sketch_register _ _)⟩
  | @step _ phase sub _ _ _ s answer _ _ course asked ih =>
      have member := course.mem_of_agenda List.mem_cons_self
      obtain ⟨before, same⟩ := alone.asked (course.grown recorded).1 asked (recorded.step _ member) (by simp)
      obtain ⟨smooth, stands⟩ := ih before
      have still : Stands fetched answer.workspace (chronicle s) := stands.alike (steady.asked member asked)
      rw [same]
      rcases went : answer.result with failure | result
      · cases phase <;> exact ⟨by simp, still⟩
      · exact known_of_stands (smooth.append (gentle_of_asked asked (by simp [fails, went]))) still
  | drop course asked ih =>
      have member := course.mem_of_agenda List.mem_cons_self
      obtain ⟨before, same⟩ := alone.asked (course.grown recorded).1 asked (recorded.step _ member) (by simp)
      rw [same]
      exact known_of_stands ((ih before).1.append (gentle_of_asked asked rfl)) (ih before).2
  | keep _ _ ih => exact ⟨(ih alone).1, (ih alone).2.alike (sketch_releaseIfIdle _ _ _)⟩
  | @release _ sub _ _ result w _ _ idle ih =>
      refine ⟨?_, (ih alone).2.alike (sketch_releaseIfIdle _ _ _)⟩
      rcases result with failure | result
      · simp [Workspace.releaseIfIdle, Finalizer.releaseIfIdle] at idle
      · exact (ih alone).1 result rfl
  | @written _ purpose _ _ _ _ _ course asked ih =>
      obtain ⟨before, planned, stands⟩ := alone.update recorded live (course.grown recorded).1 asked
      have gentle := gentle_of_asked asked rfl
      cases purpose with
      | register | release => exact known_of_stands ((ih before).1.append gentle) ((stands (ih before).2).alike rfl)
      | unlabel => exact fun left => planned ((ih before).2 left)
  | @unwritten _ purpose _ _ _ _ _ _ course asked _ ih =>
      obtain ⟨before, planned, stands⟩ := alone.update recorded live (course.grown recorded).1 asked
      have gentle := gentle_of_asked asked rfl
      cases purpose with
      | register | release => exact known_of_stands ((ih before).1.append gentle) (stands (ih before).2)
      | unlabel => exact fun rough => absurd ((ih before).1.append gentle) rough
  | complete _ ih =>
      refine ⟨(ih alone).1 _ rfl, (ih alone).2.alike ?_⟩
      split
      · exact sketch_amend _ _
      · rfl
  | fail _ ih => exact (ih (alone.earlier (by simp))).2
  | report course _ ih =>
      obtain ⟨before, same⟩ := (alone.earlier (by simp)).drift (course.grown recorded).1 (recorded.capture _ _ _)
      rw [same]
      exact (show Known _ _ _ _ _ from ih before).append (by simp [fails])
  | conceal _ _ ih => exact ih alone
  | abort _ ih => exact ((ih alone).alike (sketch_amend _ _)).alike (sketch_amend _ _)
  | conclude _ _ ih => exact known_of_stands (ih alone).1 ((ih alone).2.alike (sketch_amend _ _))
  | schedule course due _ ih =>
      obtain ⟨before, same⟩ := alone.drift (course.grown recorded).1 (recorded.draw _)
      refine ⟨(ih before).1, fun left => ?_⟩
      simp [schedules, left] at due
  | beyond course _ _ ih =>
      obtain ⟨before, same⟩ := alone.drift (course.grown recorded).1 (recorded.draw _)
      exact fun rough => absurd (ih before).1 rough
  | @unchanged _ verdict _ _ _ _ ih =>
      cases verdict with
      | outcome => exact ih alone
      | failure => exact fun _ => (ih alone).labelled
  | @persist _ verdict _ _ _ _ _ course _ asked ih =>
      obtain ⟨before, stands⟩ := alone.updateStatus recorded (course.grown recorded).1 asked
      cases verdict with
      | outcome =>
          exact ⟨(ih before).1.append (gentle_of_asked asked rfl), fun left =>
            (stands ((ih before).2 left)).alike rfl⟩
      | failure => exact fun _ => (stands (ih before)).labelled
  | @vanish _ verdict _ _ _ _ _ _ course _ asked _ _ ih =>
      obtain ⟨before, stands⟩ := alone.updateStatus recorded (course.grown recorded).1 asked
      cases verdict with
      | outcome =>
          exact ⟨(ih before).1.append (gentle_of_asked asked rfl), fun left => stands ((ih before).2 left)⟩
      | failure => exact fun _ => (stands (ih before)).labelled
  | @refuse _ verdict _ _ _ _ _ _ course _ asked _ _ ih =>
      obtain ⟨before, stands⟩ := alone.updateStatus recorded (course.grown recorded).1 asked
      cases verdict with
      | outcome => exact fun rough => absurd ((ih before).1.append (gentle_of_asked asked rfl)) rough
      | failure => exact fun _ => (stands (ih before)).labelled
  | finish _ _ ih => exact fun left => ((ih alone).2 left).labelled.planned
  | unlabel _ _ ih => exact ⟨(ih alone).1, fun left => ((ih alone).2 left).labelled.planned⟩

end

section

variable {m : Manager σ} {world : World σ} {chronicle : σ → Chronicle} {id : ResourceId} {s s' : σ}
variable {f g : Moment σ} {x y : Workspace} {c : Cycle σ} {now now' : Timestamp}

-- Two reconciles one after the other, with nobody else at the resource from the first read to the second and the
-- clock not turned back.
structure Followed (m : Manager σ) (world : World σ) (chronicle : σ → Chronicle) (id : ResourceId) (s s' : σ)
    (f g : Moment σ) (x y : Workspace) : Prop where
  first : Finds id (m.attempt world id s).trace f x
  stored : (chronicle f.after).stored = some x
  next : chronicle s' = chronicle (m.attempt world id s).state
  second : Finds id (m.attempt world id s').trace g y
  alone : ∀ d ∈ (chronicle g.after).drop (chronicle f.after).length, d.own = true
  later : (world.now g.after).before (world.now f.after) = false

theorem isSome_skips_iff (spread : c.manager.spread = true) (live : x.isBeingDeleted = false) :
    (Reconcile.skips c now x).isSome = true ↔
      Spread.hasRefreshMarker x = false ∧ (Spread.generationObserved x = true ∨ Spread.windowOpen x now = true) := by
  simp only [Reconcile.skips, spread, live, Bool.not_false, Bool.and_self, ↓reduceIte, Spread.shouldSkip]
  cases Spread.hasRefreshMarker x <;> cases Spread.generationObserved x <;> cases Spread.windowOpen x now <;> simp

theorem Kept.windowOpen (kept : Kept x y) : Spread.windowOpen y now = Spread.windowOpen x now := by
  have same := kept.terms
  simp only [Pending.terms, Prod.mk.injEq] at same
  simp [Spread.windowOpen, same]

theorem windowOpen_of_later (later : now'.before now = false) (ahead : Spread.windowOpen x now' = true) :
    Spread.windowOpen x now = true := by
  unfold Spread.windowOpen at ahead ⊢
  split at ahead
  · exact Timestamp.before_of_not_before later ahead
  · simp at ahead

theorem Followed.alone_left (followed : Followed m world chronicle id s s' f g x y)
    (recorded : Recorded m world id chronicle rules) :
    Alone chronicle id x (m.attempt world id s).trace (chronicle (m.attempt world id s).state) ∧
      (chronicle (m.attempt world id s).state).stored = some y := by
  obtain ⟨⟨_, course⟩, _⟩ := Manager.attempt_finds followed.first
  obtain ⟨⟨_, course'⟩, _⟩ := Manager.attempt_finds followed.second
  obtain ⟨mine, whole⟩ := (course.grown recorded).1.past f followed.first.1
  obtain ⟨drifts, seen, early, late, answered⟩ :=
    (course'.grown recorded).1.read g followed.second.1 _ followed.second.2
  obtain ⟨more, further, foreign⟩ : Chronicle.Drifts rules.others (chronicle (m.attempt world id s).state) seen := by
    rw [← followed.next]
    exact ((recorded.correlate s').trans drifts).trans early
  obtain ⟨rest, final, _⟩ := late
  have own : ∀ d ∈ mine ++ (more ++ rest), d.own = true := by
    intro d member
    refine followed.alone d ?_
    rw [final, further, ← whole]
    simpa using member
  obtain rfl := eq_nil_of_own (fun d member => own d (by simp [member])) fun d member => (foreign d member).1
  refine ⟨⟨f, followed.first, followed.stored, mine, whole.symm, fun d member => own d (by simp [member])⟩, ?_⟩
  have read := answered (some y) rfl
  rw [further, List.append_nil] at read
  exact read.symm

theorem Followed.kept (followed : Followed m world chronicle id s s' f g x y)
    (recorded : Recorded m world id chronicle rules) (steady : m.StepsKeep sketch) (live : x.isBeingDeleted = false)
    (left : Unfinished (m.attempt world id s) ∨ Failed (m.attempt world id s)) :
    Kept x y ∧ (Failed (m.attempt world id s) → y.labels = x.labels) := by
  obtain ⟨⟨_, course⟩, _⟩ := Manager.attempt_finds followed.first
  obtain ⟨alone, stored⟩ := followed.alone_left recorded
  have known := known_of_course recorded steady live course alone
  rcases left with ⟨outcome, ended, pending⟩ |
      ⟨name, failure, ended, moment, member, phase, given, answer, event, failed⟩
  · rw [ended] at known
    obtain ⟨w, there, kept⟩ := known pending
    obtain rfl := Option.some.inj (there.symm.trans stored)
    refine ⟨kept, ?_⟩
    rintro ⟨_, _, failed, _⟩
    simp [ended] at failed
  · rw [ended] at known
    have rough : ¬Smooth (m.attempt world id s).trace := by
      intro smooth
      simpa [fails, event, failed] using smooth moment member
    obtain ⟨w, there, kept, labels⟩ := known rough
    obtain rfl := Option.some.inj (there.symm.trans stored)
    exact ⟨kept, fun _ => labels⟩

theorem not_skipped_of_left (left : Unfinished (m.attempt world id s) ∨ Failed (m.attempt world id s)) :
    ¬∃ outcome, (m.attempt world id s).value = .ok (.skipped outcome) := by
  rintro ⟨outcome, idle⟩
  rcases left with ⟨_, ended, _⟩ | ⟨_, _, ended, _⟩
  · simp [ended] at idle
  · simp [ended] at idle

/-- Work that is left pending, or that has failed, is taken up again by the next reconcile, unless a label had forced
the reconcile through: then the label is gone, and what the status says of the schedule counts again. -/
theorem resumed (spread : m.spread = true) (recorded : Recorded m world id chronicle rules)
    (steady : m.StepsKeep sketch) (followed : Followed m world chronicle id s s' f g x y)
    (live : x.isBeingDeleted = false)
    (left : Unfinished (m.attempt world id s) ∨ Failed (m.attempt world id s)) :
    (Unfinished (m.attempt world id s) ∧ Spread.hasRefreshMarker x = true ∧
        (Spread.generationObserved x = true ∨ Spread.windowOpen x (world.now g.after) = true)) ∨
      ((∀ outcome, (m.attempt world id s').value ≠ .ok (.skipped outcome)) ∧
        ∀ finished, (m.attempt world id s').value = .ok finished →
          ∀ sub ∈ m.subroutines, ∃ moment ∈ (m.attempt world id s').trace, moment.event.starts sub.name = true) := by
  obtain ⟨_, skipped, _⟩ := Manager.attempt_finds followed.first
  obtain ⟨_, skipped', present⟩ := Manager.attempt_finds followed.second
  obtain ⟨kept, labels⟩ := followed.kept recorded steady live left
  have alive : y.isBeingDeleted = false := kept.deletion.trans live
  have due := not_skipped_of_left left
  rw [skipped, isSome_skips_iff spread live] at due
  by_cases idle : ∃ outcome, (m.attempt world id s').value = .ok (.skipped outcome)
  · left
    obtain ⟨unmarked, valid⟩ := (isSome_skips_iff spread alive).mp (skipped'.mp idle)
    rw [kept.windowOpen] at valid
    have valid := valid.imp_left kept.generation
    -- What is still valid was valid at the first reconcile, so only a label can have forced that through.
    have marked : Spread.hasRefreshMarker x = true := by
      by_contra bare
      exact due ⟨by simpa using bare, valid.imp_right (windowOpen_of_later followed.later)⟩
    refine ⟨left.resolve_right fun failed => ?_, marked, valid⟩
    rw [Spread.hasRefreshMarker, labels failed] at unmarked
    rw [Spread.hasRefreshMarker, unmarked] at marked
    simp at marked
  · right
    refine ⟨fun outcome skips => idle ⟨outcome, skips⟩, fun finished ended => ?_⟩
    have lively : m.StepsKeep Workspace.isBeingDeleted := fun sub member phase w s answer s' ends =>
      congrArg (·.2.2) (steady sub member phase w s answer s' ends)
    rcases finished with _ | outcome | outcome
    · exact absurd ended present
    · exact absurd ⟨outcome, ended⟩ idle
    · exact Manager.attempt_tours followed.second alive lively ended

end

section

open Reconciler.Shelf

def waiter : Subroutine (Shelf site) :=
  worker "namespace" [] (fun w _ => { workspace := w, result := .ok .requeueNow }) leave

def waiting : Manager (Shelf site) where
  operator := "converge"
  controller := "workspaces"
  subroutines := [waiter]
  spread := true
  faultless := by decide

def observing (generation : Int64) : Workspace :=
  { web with metadata := { web.metadata with generation := some 3 },
             status := some { observedGeneration := some generation } }

def forced : Workspace :=
  (observing 3).setLabels ⟨[(Spread.refreshLabel, "true")], by simp⟩

def first (w : Workspace) : Ran (Shelf site) (Except Stop Finished) :=
  waiting.attempt (Shelf.world site) site (stocked w [] .epoch)

def meanwhile (w : Workspace) : Shelf site :=
  { (first w).state with now := nextDay }

def second (w : Workspace) : Ran (Shelf site) (Except Stop Finished) :=
  waiting.attempt (Shelf.world site) site (meanwhile w)

theorem waiting_answers {sub : Subroutine (Shelf site)} (member : sub ∈ waiting.subroutines) {phase : Phase}
    {w : Workspace} {s s' : Shelf site} {answer : Option StepAnswer} (ends : (sub.step phase w s).Ends answer s') :
    s' = s ∧ ∀ given, answer = some given → given.workspace = w := by
  obtain rfl : sub = _ := by simpa [waiting] using member
  obtain ⟨same, rfl | rfl⟩ := answer_of_worker ends <;> exact ⟨same, by rintro _ ⟨⟩; rfl⟩

theorem waiting_recorded : Recorded waiting (Shelf.world site) site Shelf.chronicle rules := by
  have shelved := Shelf.recorded waiting fun sub member phase w s answer s' ends => by
    rw [(waiting_answers member ends).1]
    exact .refl _ _
  refine shelved.mono (fun _ _ => trivial) ?_ ?_
  · rintro given answer d ⟨store, stored, found, _, rfl, written, leaves⟩
    refine ⟨stored, found, fun gone => ?_, fun left last => ?_⟩
    · by_contra live
      simp [Deed.left, leaves, written, live] at gone
    · obtain rfl := Option.some.inj (written.symm.trans (Deed.written_of_left last))
      exact ⟨⟨rfl, rfl, fun observed => observed⟩, rfl⟩
  · rintro given answer d ⟨store, stored, found, _, rfl, written, stays⟩
    exact ⟨stored, store.restated stored given, found, by simp [Deed.left, stays, written], rfl, rfl, rfl, .inl rfl,
      .inl rfl⟩

theorem waiting_keeps : waiting.StepsKeep sketch := by
  intro sub member phase w s answer s' ends
  rw [(waiting_answers member ends).2 answer rfl]

theorem skipped_after_forced :
    waiting.spread = true ∧ Recorded waiting (Shelf.world site) site Shelf.chronicle rules ∧
      waiting.StepsKeep sketch ∧
      (∃ f g x y, Followed waiting (Shelf.world site) Shelf.chronicle site (stocked forced [] .epoch)
        (meanwhile forced) f g x y ∧ x.isBeingDeleted = false) ∧
      Unfinished (first forced) ∧ (second forced).value = .ok (.skipped (.requeueAfter .zero)) := by
  refine ⟨rfl, waiting_recorded, waiting_keeps, ?_, ⟨.requeueNow, by decide +kernel, by decide⟩, by decide +kernel⟩
  refine ⟨(first forced).trace.get ⟨1, by decide +kernel⟩, (second forced).trace.get ⟨1, by decide +kernel⟩,
    forced.setResourceVersion (some "1"),
    (((observing 3).setLabels .empty).setFinalizers []).setResourceVersion (some "2"), ⟨?_, ?_, ?_, ?_, ?_, ?_⟩, ?_⟩
  · exact finds_get (by decide +kernel)
  · decide +kernel
  · rfl
  · exact finds_get (by decide +kernel)
  · decide +kernel
  · decide +kernel
  · decide

theorem observing_followed :
    ∃ f g y, Followed waiting (Shelf.world site) Shelf.chronicle site (stocked (observing 2) [] .epoch)
      (meanwhile (observing 2)) f g ((observing 2).setResourceVersion (some "1")) y := by
  refine ⟨(first (observing 2)).trace.get ⟨1, by decide +kernel⟩,
    (second (observing 2)).trace.get ⟨1, by decide +kernel⟩, (observing 2).setResourceVersion (some "1"),
    ⟨?_, ?_, ?_, ?_, ?_, ?_⟩⟩
  · exact finds_get (by decide +kernel)
  · decide +kernel
  · rfl
  · exact finds_get (by decide +kernel)
  · decide +kernel
  · decide +kernel

theorem resumed_unobserved :
    (∀ outcome, (second (observing 2)).value ≠ .ok (.skipped outcome)) ∧
      ∃ moment ∈ (second (observing 2)).trace, moment.event.starts "namespace" = true := by
  have left : Unfinished (first (observing 2)) := ⟨.requeueNow, by decide +kernel, by decide⟩
  obtain ⟨f, g, y, followed⟩ := observing_followed
  have bare : Spread.hasRefreshMarker ((observing 2).setResourceVersion (some "1")) = false := by decide
  rcases resumed rfl waiting_recorded waiting_keeps followed (by decide) (.inl left) with
    ⟨_, marked, _⟩ | ⟨awake, started⟩
  · simp [bare] at marked
  · exact ⟨awake, started (.reconciled .requeueNow) (by decide +kernel) waiter (by simp [waiting])⟩

end

end Pending

end Reconciler
