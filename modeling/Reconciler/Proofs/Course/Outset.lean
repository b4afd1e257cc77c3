import Reconciler.Proofs.Course.Complete
import Reconciler.Proofs.Course.Trace

set_option autoImplicit false

namespace Reconciler

open Reconcile

variable {σ : Type}

def Finds (id : ResourceId) (t : List (Moment σ)) (read : Moment σ) (w : Workspace) : Prop :=
  read ∈ t ∧ read.event = .fetched id (some (.ok (some w)))

def Event.found? (id : ResourceId) : Event → Option Workspace
  | fetched other (some (.ok found)) => if other = id then found else none
  | _ => none

theorem finds_get {id : ResourceId} {t : List (Moment σ)} {i : Fin t.length} {w : Workspace}
    (read : (t.get i).event.found? id = some w) : Finds id t (t.get i) w := by
  refine ⟨List.get_mem t i, ?_⟩
  unfold Event.found? at read
  split at read
  · rename_i other found event
    split at read
    · rename_i same
      rw [event, same, read]
    · simp at read
  · simp at read

def Fetched (c : Cycle σ) (id : ResourceId) (now : Timestamp) (fetched : Workspace) (t : List (Moment σ)) : Prop :=
  ∃ read, Finds id t read fetched ∧ now = c.world.now read.after ∧
    ∀ other ∈ t, ∀ answer, other.event = .fetched id answer → other = read

def Due (c : Cycle σ) (id : ResourceId) (now : Timestamp) (fetched : Workspace) (t : List (Moment σ)) : Prop :=
  Fetched c id now fetched t ∧ skips c now fetched = none

def Outset (c : Cycle σ) (id : ResourceId) (now : Timestamp) (fetched : Workspace) (t : List (Moment σ)) :
    Stage σ → Prop
  | .opening => ∀ moment ∈ t, moment.event.isCall = false
  | .ended (.ok .notFound) => ∀ read w, ¬Finds id t read w
  | .ended (.ok (.skipped _)) => Fetched c id now fetched t ∧ (skips c now fetched).isSome = true
  | .ended (.error _) => (∀ read w, ¬Finds id t read w) ∨ Due c id now fetched t
  | .reporting _ next => Outset c id now fetched t next
  | _ => Due c id now fetched t

def Stage.Amid : Stage σ → Prop
  | .opening | .ended (.ok .notFound) | .ended (.ok (.skipped _)) => False
  | .reporting _ next => next.Amid
  | _ => True

section

variable {c : Cycle σ} {id : ResourceId} {now : Timestamp} {fetched : Workspace} {start s s' : σ}
variable {t piece : List (Moment σ)} {w : Workspace} {stage : Stage σ} {moment : Moment σ}

theorem Fetched.snoc (read : Fetched c id now fetched t) (other : ∀ answer, moment.event ≠ .fetched id answer) :
    Fetched c id now fetched (t ++ [moment]) := by
  obtain ⟨f, ⟨member, found⟩, time, only⟩ := read
  refine ⟨f, ⟨by simp [member], found⟩, time, fun m among answer again => ?_⟩
  rcases List.mem_append.mp among with earlier | last
  · exact only m earlier answer again
  · obtain rfl := List.mem_singleton.mp last
    exact absurd again (other answer)

theorem not_finds_snoc (never : ∀ read w, ¬Finds id t read w) (other : ∀ answer, moment.event ≠ .fetched id answer) :
    ∀ read w, ¬Finds id (t ++ [moment]) read w := by
  rintro f found ⟨member, answered⟩
  rcases List.mem_append.mp member with earlier | last
  · exact never f found ⟨earlier, answered⟩
  · obtain rfl := List.mem_singleton.mp last
    exact other _ answered

theorem ne_fetched_of_quiet {event : Event} (quiet : event.isCall = false)
    (answer : Option (Except Error (Option Workspace))) : event ≠ .fetched id answer := by
  rintro rfl
  simp [Event.isCall] at quiet

theorem Outset.snoc (outset : Outset c id now fetched t stage) (quiet : moment.event.isCall = false) :
    Outset c id now fetched (t ++ [moment]) stage := by
  have other : ∀ answer, moment.event ≠ .fetched id answer := ne_fetched_of_quiet quiet
  induction stage with
  | opening =>
      intro m member
      rcases List.mem_append.mp member with earlier | last
      · exact outset m earlier
      · obtain rfl := List.mem_singleton.mp last
        exact quiet
  | reporting _ _ ih => exact ih outset
  | ended result =>
      rcases result with _ | _ | _ | _
      · rcases outset with never | ⟨read, due⟩
        · exact .inl (not_finds_snoc never other)
        · exact .inr ⟨read.snoc other, due⟩
      · exact not_finds_snoc outset other
      · exact ⟨outset.1.snoc other, outset.2⟩
      · exact ⟨outset.1.snoc other, outset.2⟩
  | _ => exact ⟨outset.1.snoc other, outset.2⟩

theorem Due.asked {α : Type} {stop : σ → Bool} {call : σ → Call σ α} {event : Option α → Event} {answer : Option α}
    (due : Due c id now fetched t) (asked : Run.Asked stop call event s answer piece s')
    (other : ∀ answer found, event answer ≠ .fetched id found) : Due c id now fetched (t ++ piece) := by
  rcases asked.ends with ⟨_, rfl, _⟩ | ⟨rfl, _⟩
  · simpa using due
  · exact ⟨due.1.snoc (other answer), due.2⟩

theorem outset_of_due (due : Due c id now fetched t) (amid : stage.Amid) : Outset c id now fetched t stage := by
  induction stage with
  | opening => exact amid.elim
  | reporting _ _ ih => exact ih amid
  | ended result =>
      rcases result with _ | _ | _ | _
      · exact .inr due
      · exact amid.elim
      · exact amid.elim
      · exact due
  | _ => exact due

theorem fetched_of_asked {found : Option (Except Error (Option Workspace))}
    (unread : ∀ moment ∈ t, moment.event.isCall = false)
    (asked : Run.Asked c.world.cancelled (c.world.get id) (.fetched id) s found piece s') :
    (∀ w, found = some (.ok (some w)) → Fetched c id (c.world.now s') w (t ++ piece)) ∧
      ((∀ w, found ≠ some (.ok (some w))) → ∀ read w, ¬Finds id (t ++ piece) read w) := by
  rcases asked.ends with ⟨rfl, rfl, rfl⟩ | ⟨rfl, _⟩
  · refine ⟨by simp, fun _ read w => ?_⟩
    rintro ⟨member, answered⟩
    exact ne_fetched_of_quiet (unread read (by simpa using member)) _ answered
  · constructor
    · rintro w rfl
      refine ⟨⟨.fetched id (some (.ok (some w))), s, s'⟩, ⟨by simp, rfl⟩, rfl, fun m member answer again => ?_⟩
      rcases List.mem_append.mp member with earlier | last
      · exact absurd again (ne_fetched_of_quiet (unread m earlier) answer)
      · exact List.mem_singleton.mp last
    · rintro missing read w ⟨member, answered⟩
      rcases List.mem_append.mp member with earlier | last
      · exact ne_fetched_of_quiet (unread read earlier) _ answered
      · obtain rfl := List.mem_singleton.mp last
        exact missing w (by simpa using answered)

theorem amid_breakdown (subroutine : String) (error : Error) : (Stage.breakdown subroutine error : Stage σ).Amid := by
  unfold Stage.breakdown
  split <;> trivial

theorem amid_refused (purpose : Purpose σ) (error : Error) : (purpose.refused error).Amid := by
  cases purpose with
  | register s todo outcome => exact amid_breakdown s.name error
  | release s todo outcome result => exact amid_breakdown s.name error
  | unlabel outcome => trivial

theorem amid_next (purpose : Purpose σ) : purpose.next.Amid := by
  cases purpose <;> trivial

theorem amid_verdict (verdict : Verdict) : (verdict.next : Stage σ).Amid := by
  cases verdict <;> trivial

theorem amid_afterStep (phase : Phase) (sub : Subroutine σ) (todo : List (Subroutine σ)) (outcome : Outcome)
    (result : Except OperatorError Outcome) : (Stage.afterStep phase sub todo outcome result).Amid := by
  cases phase <;> trivial

theorem Course.outset (course : Course c id now fetched start t stage w s) : Outset c id now fetched t stage := by
  induction course with
  | start => simp [Outset]
  | note record _ ih => exact ih.snoc rfl
  | unread _ asked answered ih =>
      refine .inl ((fetched_of_asked ih asked).2 ?_)
      rintro w rfl
      simp at answered
  | absent _ asked ih => exact (fetched_of_asked ih asked).2 (by simp)
  | skip _ asked time due ih =>
      subst time
      exact ⟨(fetched_of_asked ih asked).1 _ rfl, by simp [due]⟩
  | fetch _ asked time due ih =>
      subst time
      exact ⟨(fetched_of_asked ih asked).1 _ rfl, due⟩
  | stop _ _ ih => exact .inr ih
  | pass _ _ _ ih => exact ih
  | enter _ _ _ ih => exact ih
  | condemned _ _ ih => exact ih
  | equipped _ _ _ ih => exact ih
  | register _ _ _ ih => exact ih
  | step _ asked ih => exact outset_of_due (Due.asked ih asked (by simp)) (amid_afterStep ..)
  | drop _ asked ih => exact .inr (Due.asked ih asked (by simp))
  | keep _ _ ih => exact ih
  | release _ _ ih => exact ih
  | written _ asked ih => exact outset_of_due (Due.asked ih asked (by simp)) (amid_next _)
  | unwritten _ asked _ ih => exact outset_of_due (Due.asked ih asked (by simp)) (amid_refused _ _)
  | complete _ ih => exact ih
  | fail _ ih => exact Outset.snoc ih rfl
  | report _ _ ih => exact Outset.snoc ih rfl
  | conceal _ _ ih => exact ih
  | abort _ ih => exact ih
  | conclude _ _ ih => exact ih
  | schedule _ _ _ ih => exact ih
  | beyond _ _ _ ih => exact .inr ih
  | unchanged _ _ ih => exact outset_of_due ih (amid_verdict _)
  | persist _ _ asked ih => exact outset_of_due (Due.asked ih asked (by simp)) (amid_verdict _)
  | vanish _ _ asked _ _ ih => exact outset_of_due (Due.asked ih asked (by simp)) (amid_verdict _)
  | refuse _ _ asked _ _ ih => exact .inr (Due.asked ih asked (by simp))
  | finish _ _ ih => exact ih
  | unlabel _ _ ih => exact ih

end

def Covered (c : Cycle σ) (t : List (Moment σ)) (todo : List (Subroutine σ)) : Prop :=
  ∀ sub ∈ c.manager.subroutines, sub ∈ todo ∨ ∃ moment ∈ t, moment.event.starts sub.name = true

def Toured (c : Cycle σ) (t : List (Moment σ)) (w : Workspace) : Stage σ → Prop
  | .sweeping todo _ | .settled _ todo _ _ => w.isBeingDeleted = false ∧ Covered c t todo
  | .turning sub todo _ | .writing (.register sub todo _) => w.isBeingDeleted = false ∧ Covered c t (sub :: todo)
  | .stepping phase sub todo _ => phase = .process ∧ w.isBeingDeleted = false ∧ Covered c t (sub :: todo)
  | .cleaned .. | .writing (.release ..) => False
  | .persisting (.outcome _) | .unlabelling _ | .writing (.unlabel _) | .ended (.ok (.reconciled _)) => Covered c t []
  | .reporting _ next => Toured c t w next
  | .opening | .failed .. | .persisting (.failure _) | .ended _ => True

section

variable {c : Cycle σ} {id : ResourceId} {now : Timestamp} {fetched : Workspace} {start s s' : σ}
variable {t piece : List (Moment σ)} {w w' : Workspace} {stage : Stage σ} {todo : List (Subroutine σ)}

theorem Covered.append (covered : Covered c t todo) (piece : List (Moment σ)) : Covered c (t ++ piece) todo := by
  intro sub member
  rcases covered sub member with ahead | ⟨moment, among, start⟩
  · exact .inl ahead
  · exact .inr ⟨moment, List.mem_append_left piece among, start⟩

theorem Covered.begun {sub : Subroutine σ} {moment : Moment σ} (covered : Covered c t (sub :: todo))
    (start : moment.event.starts sub.name = true) : Covered c (t ++ [moment]) todo := by
  intro other member
  rcases covered other member with ahead | ⟨earlier, among, before⟩
  · rcases List.mem_cons.mp ahead with rfl | later
    · exact .inr ⟨moment, by simp, start⟩
    · exact .inl later
  · exact .inr ⟨earlier, List.mem_append_left _ among, before⟩

theorem Toured.append (toured : Toured c t w stage) (same : w'.isBeingDeleted = w.isBeingDeleted)
    (piece : List (Moment σ)) : Toured c (t ++ piece) w' stage := by
  induction stage with
  | sweeping | settled | turning => exact ⟨same.trans toured.1, toured.2.append piece⟩
  | stepping => exact ⟨toured.1, same.trans toured.2.1, toured.2.2.append piece⟩
  | cleaned => exact toured
  | writing purpose =>
      cases purpose with
      | register => exact ⟨same.trans toured.1, toured.2.append piece⟩
      | release => exact toured
      | unlabel => exact Covered.append toured piece
  | persisting verdict =>
      cases verdict with
      | outcome => exact Covered.append toured piece
      | failure => trivial
  | unlabelling => exact Covered.append toured piece
  | ended result =>
      rcases result with _ | _ | _ | _
      · trivial
      · trivial
      · trivial
      · exact Covered.append toured piece
  | reporting _ _ ih => exact ih toured
  | opening | failed => trivial

theorem toured_breakdown (subroutine : String) (error : Error) :
    Toured c t w (.breakdown subroutine error : Stage σ) := by
  unfold Stage.breakdown
  split <;> trivial

theorem isBeingDeleted_amend (change : Ledger → Ledger × Bool) :
    (c.amend change w).isBeingDeleted = w.isBeingDeleted := by
  simp [Workspace.isBeingDeleted]

theorem Course.toured (live : fetched.isBeingDeleted = false)
    (steady : c.manager.StepsKeep Workspace.isBeingDeleted)
    (course : Course c id now fetched start t stage w s) : Toured c t w stage := by
  -- The steps keep the deletion mark, so that every subroutine comes to be processed.
  induction course with
  | start => trivial
  | note record _ ih => exact ih.append rfl _
  | unread | absent | skip => trivial
  | fetch => exact ⟨(isBeingDeleted_amend _).trans live, fun sub member => .inl member⟩
  | stop => trivial
  | pass _ _ skipped _ => simp [Sweep.isSkipped, Workspace.phase, live] at skipped
  | enter _ _ _ ih => exact ⟨(isBeingDeleted_amend _).trans ih.1, ih.2⟩
  | condemned _ deleted ih => simp [ih.1] at deleted
  | equipped _ _ _ ih => exact ⟨rfl, ih⟩
  | register _ _ _ ih => exact ih
  | step course asked ih =>
      obtain ⟨rfl, still, covered⟩ := ih
      obtain ⟨rfl, _⟩ := asked.answered
      have same := steady.asked (course.mem_of_agenda List.mem_cons_self) asked
      exact ⟨same.trans still, covered.begun (by simp [Event.starts])⟩
  | drop => trivial
  | keep _ _ ih => exact ih.elim
  | release _ _ ih => exact ih.elim
  | @written _ purpose _ _ _ piece _ _ _ ih =>
      cases purpose with
      | register => exact ⟨rfl, ih.append rfl piece⟩
      | release => exact ih.elim
      | unlabel => exact Covered.append ih piece
  | @unwritten _ purpose _ _ _ _ _ _ _ _ _ ih =>
      cases purpose with
      | register s todo outcome => exact toured_breakdown s.name _
      | release => exact ih.elim
      | unlabel => trivial
  | complete _ ih =>
      refine ⟨?_, ih.2⟩
      split
      · exact (isBeingDeleted_amend _).trans ih.1
      · exact ih.1
  | fail => trivial
  | report _ _ ih => exact Toured.append ih rfl _
  | conceal _ _ ih => exact ih
  | abort => trivial
  | conclude _ _ ih => exact ih.2
  | schedule _ _ _ ih => exact ih.2
  | beyond => trivial
  | @unchanged _ verdict _ _ _ _ ih => cases verdict with
      | outcome => exact ih
      | failure => trivial
  | @persist _ verdict _ _ _ piece _ _ _ _ ih => cases verdict with
      | outcome => exact Covered.append ih piece
      | failure => trivial
  | @vanish _ verdict _ _ _ piece _ _ _ _ _ _ _ ih => cases verdict with
      | outcome => exact Covered.append ih piece
      | failure => trivial
  | refuse => trivial
  | finish _ _ ih => exact ih
  | unlabel _ _ ih => exact ih

end

theorem Fetched.eq {c : Cycle σ} {id : ResourceId} {now : Timestamp} {fetched w : Workspace} {t : List (Moment σ)}
    {read : Moment σ} (before : Fetched c id now fetched t) (found : Finds id t read w) :
    fetched = w ∧ now = c.world.now read.after := by
  obtain ⟨other, ⟨member, answered⟩, time, only⟩ := before
  obtain rfl := only read found.1 _ found.2
  exact ⟨by simpa [found.2] using answered.symm, time⟩

theorem Course.found_eq {c : Cycle σ} {id : ResourceId} {now : Timestamp} {fetched w left : Workspace} {start s : σ}
    {t : List (Moment σ)} {value : Except Stop Finished} {read : Moment σ}
    (course : Course c id now fetched start t (.ended value) left s) (found : Finds id t read w) :
    fetched = w ∧ now = c.world.now read.after := by
  have outset := course.outset
  rcases value with _ | _ | _ | _
  · rcases outset with never | before
    · exact absurd found (never read w)
    · exact before.1.eq found
  · exact absurd found (outset read w)
  · exact outset.1.eq found
  · exact outset.1.eq found

namespace Manager

variable {m : Manager σ} {world : World σ} {id : ResourceId} {s : σ} {read : Moment σ} {w : Workspace}

theorem attempt_finds (found : Finds id (m.attempt world id s).trace read w) :
    let c := m.cycle world id (world.correlate s).1
    (∃ left, Course c id (world.now read.after) w (world.correlate s).2 (m.attempt world id s).trace
      (.ended (m.attempt world id s).value) left (m.attempt world id s).state) ∧
    ((∃ outcome, (m.attempt world id s).value = .ok (.skipped outcome)) ↔
      (skips c (world.now read.after) w).isSome = true) ∧
    (m.attempt world id s).value ≠ .ok .notFound := by
  obtain ⟨now, fetched, left, course⟩ := m.attempt_course world id s
  have outset := course.outset
  rcases result : (m.attempt world id s).value with _ | _ | _ | _
  · rw [result] at outset course
    rcases outset with never | ⟨before, due⟩
    · exact absurd found (never read w)
    · obtain ⟨rfl, rfl⟩ := before.eq found
      exact ⟨⟨left, course⟩, by simpa using due, by simp⟩
  · rw [result] at outset
    exact absurd found (outset read w)
  · rw [result] at outset course
    obtain ⟨rfl, rfl⟩ := outset.1.eq found
    exact ⟨⟨left, course⟩, by simpa using outset.2, by simp⟩
  · rw [result] at outset course
    obtain ⟨rfl, rfl⟩ := outset.1.eq found
    exact ⟨⟨left, course⟩, by simpa using outset.2, by simp⟩

theorem attempt_tours (found : Finds id (m.attempt world id s).trace read w) (live : w.isBeingDeleted = false)
    (steady : m.StepsKeep Workspace.isBeingDeleted) {outcome : Outcome}
    (ended : (m.attempt world id s).value = .ok (.reconciled outcome)) :
    ∀ sub ∈ m.subroutines, ∃ moment ∈ (m.attempt world id s).trace, moment.event.starts sub.name = true := by
  obtain ⟨⟨_, course⟩, _⟩ := attempt_finds found
  have toured := course.toured live steady
  rw [ended] at toured
  intro sub member
  rcases toured sub member with ahead | started
  · simp at ahead
  · exact started

end Manager

section

variable {m : Manager σ} {world : World σ} {id : ResourceId} {s : σ}

theorem mem_attempt_of_isCall {moment : Moment σ} (member : moment ∈ (m.reconcile world id s).trace)
    (call : moment.event.isCall = true) : moment ∈ (m.attempt world id s).trace := by
  obtain ⟨_, metrics, trace⟩ := m.reconcile_attempt world id s
  rw [trace] at member
  rcases List.mem_append.mp member with earlier | last
  · exact earlier
  · obtain ⟨metric, _, rfl⟩ := List.mem_map.mp last
    simp [Event.isCall] at call

theorem finds_reconcile {read : Moment σ} {w : Workspace} :
    Finds id (m.reconcile world id s).trace read w ↔ Finds id (m.attempt world id s).trace read w := by
  constructor
  · rintro ⟨member, found⟩
    exact ⟨mem_attempt_of_isCall member (by rw [found]; rfl), found⟩
  · rintro ⟨member, found⟩
    obtain ⟨_, metrics, trace⟩ := m.reconcile_attempt world id s
    exact ⟨trace ▸ List.mem_append_left _ member, found⟩

end

end Reconciler
