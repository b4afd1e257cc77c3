import Reconciler.Proofs.Chronicle.Shelf
import Reconciler.Proofs.Course.Outset
import Reconciler.Proofs.Ledger

set_option autoImplicit false

namespace Reconciler

open Reconcile

variable {σ : Type}

namespace TransitionTime

def Seen (t : List (Moment σ)) (old : Condition) : Prop :=
  ∃ moment ∈ t, ∃ given, moment.event.given? = some given ∧
    ∃ shown, given.conditions.find? old.type = some shown ∧ shown.status ≠ old.status

def Owned (m : Manager σ) (phase : Phase) (type : String) : Prop :=
  ∃ sub ∈ m.subroutines, type = phase.conditionType sub.name

def touches (phase : Phase) : Stage σ → List String
  | .failed subroutine _ => [phase.conditionType subroutine, Condition.ready]
  | .reporting _ next => touches phase next
  | .opening | .persisting _ | .unlabelling _ | .ended _ => []
  | stage => Condition.ready :: stage.agenda.map fun sub => phase.conditionType sub.name

def inTurn : Stage σ → Bool
  | .turning .. | .stepping .. | .writing (.register ..) => true
  | _ => false

inductive Came (m : Manager σ) (phase : Phase) (now : Timestamp) (t : List (Moment σ)) (old cur : Condition)
    (stage : Stage σ) : Prop where
  | kept : cur.status = old.status → cur.lastTransition = old.lastTransition → ¬Seen t old →
      Came m phase now t old cur stage
  | seen : cur.lastTransition = now → Seen t old → old.status ≠ .unknown → Owned m phase old.type →
      Came m phase now t old cur stage
  -- No call may have been given it yet, but its status is not going to change back.
  | moved : cur.lastTransition = now → cur.status ≠ old.status → old.type ∉ touches phase stage →
      Came m phase now t old cur stage
  | turned : cur.lastTransition = now → cur.status ≠ old.status → old.status ≠ .unknown → Owned m phase old.type →
      inTurn stage = true → Came m phase now t old cur stage

structure Holds (m : Manager σ) (phase : Phase) (now : Timestamp) (t : List (Moment σ)) (old : Condition)
    (ledger : Ledger) (stage : Stage σ) : Prop where
  distinct : ledger.types.Nodup
  came : ∃ cur, ledger.find? old.type = some cur ∧ Came m phase now t old cur stage

def Dated (m : Manager σ) (phase : Phase) (now : Timestamp) (t : List (Moment σ)) (old : Condition) (w : Workspace) :
    Stage σ → Prop
  | .opening | .unlabelling _ | .writing (.unlabel _) | .ended _ => True
  | .reporting _ next => Dated m phase now t old w next
  | stage => Holds m phase now t old w.conditions stage

def Written (m : Manager σ) (phase : Phase) (now : Timestamp) (old : Condition) (past : List (Moment σ))
    (moment : Moment σ) : Prop :=
  ∀ given answer, moment.event = .statusUpdated given answer →
    given.conditions.types.Nodup ∧ ∃ cur, given.conditions.find? old.type = some cur ∧
      (cur.status = old.status →
        (¬Seen past old ∧ cur.lastTransition = old.lastTransition) ∨
          (Seen past old ∧ cur.lastTransition = now ∧ old.status ≠ .unknown ∧ Owned m phase old.type))

def IsUnknown (type : String) (ledger : Ledger) : Prop :=
  ∃ cur, ledger.find? type = some cur ∧ cur.status = .unknown

def Begun (phase : Phase) (_ : List (Moment σ)) (moment : Moment σ) : Prop :=
  ∀ subroutine taken given answer, moment.event = .stepped subroutine taken given answer →
    IsUnknown (phase.conditionType subroutine) given.conditions

def Marked (phase : Phase) (w : Workspace) : Stage σ → Prop
  | .turning sub _ _ | .stepping _ sub _ _ | .writing (.register sub _ _) =>
      IsUnknown (phase.conditionType sub.name) w.conditions
  | .reporting _ next => Marked phase w next
  | _ => True

section

variable {m : Manager σ} {phase : Phase} {now : Timestamp} {t piece : List (Moment σ)} {old cur new : Condition}
variable {stage stage' : Stage σ} {ledger : Ledger} {event : Event} {s s' : σ} {w : Workspace}

theorem seen_append_iff : Seen (t ++ piece) old ↔ Seen t old ∨ Seen piece old := by
  constructor
  · rintro ⟨moment, member, shown⟩
    rcases List.mem_append.mp member with early | late
    · exact .inl ⟨moment, early, shown⟩
    · exact .inr ⟨moment, late, shown⟩
  · rintro (⟨moment, early, shown⟩ | ⟨moment, late, shown⟩)
    · exact ⟨moment, List.mem_append_left _ early, shown⟩
    · exact ⟨moment, List.mem_append_right _ late, shown⟩

theorem not_seen_of_quiet (quiet : ∀ moment ∈ piece, moment.event.given? = none) : ¬Seen piece old := by
  rintro ⟨moment, member, given, shown, _⟩
  simp [quiet moment member] at shown

theorem Came.quiet (came : Came m phase now t old cur stage)
    (quiet : ∀ moment ∈ piece, moment.event.given? = none)
    (fewer : ∀ type ∈ touches phase stage', type ∈ touches phase stage)
    (turn : inTurn stage = true → inTurn stage' = true) : Came m phase now (t ++ piece) old cur stage' := by
  cases came with
  | kept status time unseen =>
      refine .kept status time fun seen => ?_
      rcases seen_append_iff.mp seen with early | late
      · exact unseen early
      · exact not_seen_of_quiet quiet late
  | seen time seen known owned => exact .seen time (seen_append_iff.mpr (.inl seen)) known owned
  | moved time status untouched => exact .moved time status fun ahead => untouched (fewer _ ahead)
  | turned time status known owned inside => exact .turned time status known owned (turn inside)

theorem Came.shown (came : Came m phase now t old cur stage) (given : event.given? = some w)
    (found : w.conditions.find? old.type = some cur)
    (fewer : ∀ type ∈ touches phase stage', type ∈ touches phase stage) :
    Came m phase now (t ++ [⟨event, s, s'⟩]) old cur stage' := by
  have seen (other : cur.status ≠ old.status) : Seen (t ++ [⟨event, s, s'⟩]) old :=
    ⟨⟨event, s, s'⟩, by simp, w, given, cur, found, other⟩
  cases came with
  | kept status time unseen =>
      refine .kept status time fun seen => ?_
      rcases seen_append_iff.mp seen with early | ⟨moment, late, other, again, shown, there, differs⟩
      · exact unseen early
      · obtain rfl := List.mem_singleton.mp late
        obtain rfl := Option.some.inj (given.symm.trans again)
        obtain rfl := Option.some.inj (found.symm.trans there)
        exact differs status
  | seen time seen known owned => exact .seen time (seen_append_iff.mpr (.inl seen)) known owned
  | moved time status untouched => exact .moved time status fun ahead => untouched (fewer _ ahead)
  | turned time status known owned _ => exact .seen time (seen status) known owned

theorem Came.revise (came : Came m phase now t old cur stage) (touched : old.type ∈ touches phase stage)
    (idle : inTurn stage = false) (time : new.lastTransition = now)
    (after : old.type ∉ touches phase stage' ∨
      inTurn stage' = true ∧ new.status = .unknown ∧ Owned m phase old.type) :
    Came m phase now t old (cur.revise new) stage' := by
  cases came with
  | kept status before unseen =>
      -- Only a change of status takes the new time.
      by_cases same : new.status = old.status
      · exact .kept same (by simp [Condition.revise, status, same, before]) unseen
      · have moves : (cur.revise new).lastTransition = now := by
          simp [Condition.revise, status, Ne.symm same, time]
        rcases after with untouched | ⟨inside, unknown, owned⟩
        · exact .moved moves same untouched
        · exact .turned moves same (fun known => same (unknown.trans known.symm)) owned inside
  | seen before seen known owned =>
      refine .seen ?_ seen known owned
      simp [Condition.revise, before, time]
  | moved _ _ untouched => exact absurd touched untouched
  | turned _ _ _ _ inside => simp [idle] at inside

theorem Holds.quiet (holds : Holds m phase now t old ledger stage)
    (quiet : ∀ moment ∈ piece, moment.event.given? = none)
    (fewer : ∀ type ∈ touches phase stage', type ∈ touches phase stage)
    (turn : inTurn stage = true → inTurn stage' = true) : Holds m phase now (t ++ piece) old ledger stage' := by
  obtain ⟨cur, found, came⟩ := holds.came
  exact ⟨holds.distinct, cur, found, came.quiet quiet fewer turn⟩

theorem Holds.pass (holds : Holds m phase now t old ledger stage)
    (fewer : ∀ type ∈ touches phase stage', type ∈ touches phase stage)
    (turn : inTurn stage = true → inTurn stage' = true) : Holds m phase now t old ledger stage' := by
  have passed : Holds m phase now (t ++ []) old ledger stage' := holds.quiet (by simp) fewer turn
  simpa using passed

theorem Holds.set (holds : Holds m phase now t old ledger stage) (touched : new.type ∈ touches phase stage)
    (idle : inTurn stage = false) (time : new.lastTransition = now)
    (fewer : ∀ type ∈ touches phase stage', type ∈ touches phase stage)
    (after : new.type ∉ touches phase stage' ∨
      inTurn stage' = true ∧ new.status = .unknown ∧ Owned m phase new.type) :
    Holds m phase now t old (Ledger.set new ledger).1 stage' := by
  obtain ⟨cur, found, came⟩ := holds.came
  refine ⟨Ledger.nodup_set new holds.distinct, ?_⟩
  by_cases same : new.type = old.type
  · rw [same] at touched after
    exact ⟨cur.revise new, by simp [Ledger.find?_set, same, found], came.revise touched idle time after⟩
  · have passed : Came m phase now (t ++ []) old cur stage' := came.quiet (by simp) fewer (by simp [idle])
    exact ⟨cur, by simpa [Ledger.find?_set, same] using found, by simpa using passed⟩

theorem Holds.shown (holds : Holds m phase now t old w.conditions stage) (given : event.given? = some w)
    (fewer : ∀ type ∈ touches phase stage', type ∈ touches phase stage) :
    Holds m phase now (t ++ [⟨event, s, s'⟩]) old w.conditions stage' := by
  obtain ⟨cur, found, came⟩ := holds.came
  exact ⟨holds.distinct, cur, found, came.shown given found fewer⟩

theorem Holds.ready {verdict : Verdict} {outcome : Outcome} (status : ConditionStatus) (reason message : String)
    (holds : Holds m phase now t old ledger (.sweeping [] outcome)) :
    Holds m phase now t old (Ledger.set ⟨Condition.ready, status, reason, message, now⟩ ledger).1
      (.persisting verdict) :=
  holds.set (by simp [touches]) rfl rfl (by simp [touches]) (.inl (by simp [touches]))

theorem Holds.failed {subroutine message : String} {error : Error} {verdict : Verdict}
    (holds : Holds m phase now t old ledger (.failed subroutine error : Stage σ)) :
    Holds m phase now t old
      (Ledger.setReadyError now message (Ledger.failed now subroutine phase message ledger).1).1
      (.persisting verdict : Stage σ) := by
  have first : Holds m phase now t old (Ledger.failed now subroutine phase message ledger).1
      (.sweeping [] .done : Stage σ) :=
    Holds.set holds (by simp [touches]) rfl rfl (by simp [touches, Stage.agenda])
      (.inl (by simp [touches, Stage.agenda, Phase.conditionType_ne_ready]))
  exact first.ready ..

theorem holds_of_read (distinct : ledger.types.Nodup) (present : ledger.find? old.type = some old)
    (unseen : ¬Seen t old) : Holds m phase now t old (Ledger.setUnknownIfAbsent now ledger).1 stage := by
  unfold Ledger.setUnknownIfAbsent
  split
  · exact ⟨distinct, old, present, .kept rfl rfl unseen⟩
  · -- A `Ready` that is added is not the condition in question, which was there.
    rename_i absent
    have other : Condition.ready ≠ old.type := by
      intro same
      simp [same, present] at absent
    refine ⟨Ledger.nodup_set _ distinct, old, ?_, .kept rfl rfl unseen⟩
    simpa [Ledger.setReady, Ledger.find?_set, other] using present

theorem given?_of_quiet (quiet : event.isCall = false) : event.given? = none := by
  cases event <;> simp_all [Event.isCall, Event.given?]

theorem Holds.written {verdict : Verdict} {answer : Option (Except Error Workspace)}
    (holds : Holds m phase now t old w.conditions (.persisting verdict : Stage σ)) :
    Written m phase now old t ⟨.statusUpdated w answer, s, s'⟩ := by
  rintro given _ ⟨⟩
  obtain ⟨cur, found, came⟩ := holds.came
  refine ⟨holds.distinct, cur, found, fun same => ?_⟩
  cases came with
  | kept _ time unseen => exact .inl ⟨unseen, time⟩
  | seen time seen known owned => exact .inr ⟨seen, time, known, owned⟩
  | moved _ differs _ => exact absurd same differs
  | turned _ differs _ _ _ => exact absurd same differs

theorem written_of_other (other : ∀ given answer, event ≠ .statusUpdated given answer) :
    Written m phase now old t ⟨event, s, s'⟩ :=
  fun given answer same => absurd same (other given answer)

end

section

variable {c : Cycle σ} {id : ResourceId} {now : Timestamp} {fetched : Workspace} {start s : σ}
variable {t piece : List (Moment σ)} {w : Workspace} {stage : Stage σ} {old : Condition} {phase : Phase}

theorem Dated.quiet (dated : Dated c.manager phase now t old w stage)
    (quiet : ∀ moment ∈ piece, moment.event.given? = none) : Dated c.manager phase now (t ++ piece) old w stage := by
  induction stage with
  | opening | unlabelling | ended => trivial
  | reporting _ _ ih => exact ih dated
  | writing purpose =>
      cases purpose with
      | register | release => exact Holds.quiet dated quiet (fun _ member => member) (fun inside => inside)
      | unlabel => trivial
  | _ => exact Holds.quiet dated quiet (fun _ member => member) (fun inside => inside)

theorem dated_breakdown {subroutine : String} {error : Error}
    (holds : error ≠ .cancelled → Holds c.manager phase now t old w.conditions (.failed subroutine error : Stage σ)) :
    Dated c.manager phase now t old w (.breakdown subroutine error : Stage σ) := by
  unfold Stage.breakdown
  split
  · trivial
  · rename_i serious
    exact holds serious

theorem untouched_of_turn {sub : Subroutine σ} {todo : List (Subroutine σ)} {outcome : Outcome}
    (ahead : sub :: todo <:+ c.manager.subroutines) :
    phase.conditionType sub.name ∉ touches phase (.sweeping todo outcome) := by
  intro member
  rcases List.mem_cons.mp member with same | later
  · exact phase.conditionType_ne_ready sub.name same
  · obtain ⟨other, among, same⟩ := List.mem_map.mp later
    have distinct := c.manager.names_nodup.sublist (ahead.sublist.map (·.name))
    exact (List.nodup_cons.mp distinct).1 (List.mem_map.mpr ⟨other, among, Phase.conditionType_inj same⟩)

theorem course_dated (managed : c.manager.conditions = true) (steady : c.manager.StepsKeep Workspace.conditions)
    (distinct : fetched.conditions.types.Nodup) (present : fetched.conditions.find? old.type = some old)
    (course : Course c id now fetched start t stage w s) :
    Throughout (Written c.manager fetched.phase now old) t ∧ Dated c.manager fetched.phase now t old w stage := by
  -- Step by step: `Written` is about the status writes that were made, `Dated` about the one that may come.
  induction course with
  | start => exact ⟨.nil, trivial⟩
  | note record _ ih => exact ⟨ih.1.snoc (written_of_other (by simp)), ih.2.quiet (by simp [Event.given?])⟩
  | unread _ asked _ ih => exact ⟨ih.1.asked asked (written_of_other (by simp)), trivial⟩
  | absent _ asked ih => exact ⟨ih.1.asked asked (written_of_other (by simp)), trivial⟩
  | skip _ asked _ _ ih => exact ⟨ih.1.asked asked (written_of_other (by simp)), trivial⟩
  | @fetch t _ _ piece _ course asked _ _ ih =>
      refine ⟨ih.1.asked asked (written_of_other (by simp)), ?_⟩
      have unseen : ¬Seen (t ++ piece) old := by
        rw [seen_append_iff]
        rintro (early | late)
        · exact not_seen_of_quiet (fun moment member => given?_of_quiet (course.outset moment member)) early
        · obtain ⟨rfl, _⟩ := asked.answered
          exact not_seen_of_quiet (by simp [Event.given?]) late
      show Holds _ _ _ _ _ _ _
      rw [conditions_amend managed]
      exact holds_of_read distinct present unseen
  | stop _ _ ih => exact ⟨ih.1, trivial⟩
  | pass _ _ _ ih => exact ⟨ih.1, Holds.pass ih.2 (by simp [touches, Stage.agenda]; tauto) (by simp [inTurn])⟩
  | enter course _ _ ih =>
      have member := course.mem_of_agenda List.mem_cons_self
      refine ⟨ih.1, ?_⟩
      show Holds _ _ _ _ _ _ _
      rw [conditions_amend managed]
      exact Holds.set ih.2 (by simp [touches, Stage.agenda]) rfl rfl (fun _ ahead => ahead)
        (.inr ⟨rfl, rfl, _, member, rfl⟩)
  | condemned _ _ ih => exact ⟨ih.1, Holds.pass ih.2 (fun _ ahead => ahead) (fun _ => rfl)⟩
  | equipped _ _ _ ih => exact ⟨ih.1, Holds.pass ih.2 (fun _ ahead => ahead) (fun _ => rfl)⟩
  | register _ _ _ ih => exact ⟨ih.1, Holds.pass ih.2 (fun _ ahead => ahead) (fun _ => rfl)⟩
  | @step _ phase sub todo _ w _ answer _ _ course asked ih =>
      refine ⟨ih.1.asked asked (written_of_other (by simp)), ?_⟩
      obtain ⟨rfl, _⟩ := asked.answered
      have same := steady.asked (course.mem_of_agenda List.mem_cons_self) asked
      cases phase with
      | process =>
          show Holds _ _ _ _ _ _ _
          rw [same]
          exact Holds.shown ih.2 rfl (fun _ ahead => ahead)
      | finalize =>
          show Holds _ _ _ _ _ _ _
          rw [same]
          exact Holds.shown ih.2 rfl (fun _ ahead => ahead)
  | drop course asked ih => exact ⟨ih.1.asked asked (written_of_other (by simp)), trivial⟩
  | keep _ _ ih =>
      refine ⟨ih.1, ?_⟩
      show Holds _ _ _ _ _ _ _
      rw [conditions_releaseIfIdle]
      exact Holds.pass ih.2 (fun _ ahead => ahead) (by simp [inTurn])
  | release _ _ ih =>
      refine ⟨ih.1, ?_⟩
      show Holds _ _ _ _ _ _ _
      rw [conditions_releaseIfIdle]
      exact Holds.pass ih.2 (fun _ ahead => ahead) (by simp [inTurn])
  | @written _ purpose w _ _ _ _ _ asked ih =>
      refine ⟨ih.1.asked asked (written_of_other (by simp)), ?_⟩
      obtain ⟨rfl, _⟩ := asked.answered
      cases purpose with
      | register | release =>
          show Holds _ _ _ _ _ w.conditions _
          exact Holds.shown ih.2 rfl (fun _ ahead => ahead)
      | unlabel => trivial
  | @unwritten _ purpose _ _ _ _ _ _ _ asked answered ih =>
      refine ⟨ih.1.asked asked (written_of_other (by simp)), ?_⟩
      rcases asked.ends with ⟨rfl, _, _⟩ | ⟨rfl, _⟩
      · -- Cancelled before the write: the status is not written any more.
        obtain rfl : _ = Error.cancelled := by simpa using answered.symm
        cases purpose <;> simp [Purpose.refused, Stage.breakdown, Dated]
      · cases purpose with
        | register | release =>
            exact dated_breakdown fun _ => Holds.shown ih.2 rfl (by simp [touches, Stage.agenda, Purpose.agenda])
        | unlabel => trivial
  | complete course ih =>
      refine ⟨ih.1, ?_⟩
      show Holds _ _ _ _ _ _ _
      split
      · rw [conditions_amend managed]
        exact Holds.set ih.2 (by simp [touches, Stage.agenda]) rfl rfl (by simp [touches, Stage.agenda]; tauto)
          (.inl (untouched_of_turn course.agenda_suffix))
      · exact Holds.pass ih.2 (by simp [touches, Stage.agenda]; tauto) (by simp [inTurn])
  | fail _ ih =>
      exact ⟨ih.1.snoc (written_of_other (by simp)),
        Holds.quiet ih.2 (by simp [Event.given?]) (by simp [touches, Stage.agenda]) (by simp [inTurn])⟩
  | report course _ ih =>
      refine ⟨ih.1.snoc (written_of_other (by simp)), ?_⟩
      exact Dated.quiet (show Dated _ _ _ _ _ _ _ from ih.2) (by simp [Event.given?])
  | conceal _ _ ih => exact ih
  | @abort _ subroutine error w _ _ ih =>
      refine ⟨ih.1, ?_⟩
      show Holds _ _ _ _ _ _ _
      rw [conditions_amend managed, conditions_amend managed]
      exact Holds.failed ih.2
  | conclude _ _ ih =>
      refine ⟨ih.1, ?_⟩
      show Holds _ _ _ _ _ _ _
      rw [conditions_amend managed]
      exact Holds.ready _ _ _ ih.2
  | schedule _ _ scheduled ih =>
      refine ⟨ih.1, ?_⟩
      show Holds _ _ _ _ _ _ _
      rw [conditions_amend managed, conditions_scheduleNext? scheduled]
      exact Holds.ready _ _ _ ih.2
  | beyond course _ _ ih => exact ⟨ih.1, trivial⟩
  | @unchanged _ verdict _ _ _ _ ih => exact ⟨ih.1, by cases verdict <;> trivial⟩
  | @persist _ verdict _ _ _ _ _ _ _ asked ih =>
      exact ⟨ih.1.asked asked (Holds.written ih.2), by cases verdict <;> trivial⟩
  | @vanish _ verdict _ _ _ _ _ _ _ _ asked _ _ ih =>
      exact ⟨ih.1.asked asked (Holds.written ih.2), by cases verdict <;> trivial⟩
  | refuse _ _ asked _ _ ih => exact ⟨ih.1.asked asked (Holds.written ih.2), trivial⟩
  | finish _ _ ih => exact ⟨ih.1, trivial⟩
  | unlabel _ _ ih => exact ⟨ih.1, trivial⟩

theorem begun_of_other {event : Event} {s s' : σ}
    (other : ∀ name taken given answer, event ≠ .stepped name taken given answer) :
    Begun phase t ⟨event, s, s'⟩ :=
  fun name taken given answer same => absurd same (other name taken given answer)

theorem isUnknown_processing (subroutine : String) (ledger : Ledger) :
    IsUnknown (phase.conditionType subroutine) (Ledger.processing now subroutine phase ledger).1 := by
  simp only [IsUnknown, Ledger.processing, Ledger.setSubroutine, Ledger.find?_set, ↓reduceIte, Option.some.injEq,
    exists_eq_left']
  rcases ledger.find? (phase.conditionType subroutine) with _ | cur <;> rfl

theorem marked_breakdown (subroutine : String) (error : Error) :
    Marked phase w (.breakdown subroutine error : Stage σ) := by
  unfold Stage.breakdown
  split <;> trivial

theorem course_marked (managed : c.manager.conditions = true)
    (course : Course c id now fetched start t stage w s) :
    Throughout (Begun fetched.phase) t ∧ Marked fetched.phase w stage := by
  induction course with
  | start => exact ⟨.nil, trivial⟩
  | note record _ ih => exact ⟨ih.1.snoc (begun_of_other (by simp)), ih.2⟩
  | unread _ asked _ ih => exact ⟨ih.1.asked asked (begun_of_other (by simp)), trivial⟩
  | absent _ asked ih => exact ⟨ih.1.asked asked (begun_of_other (by simp)), trivial⟩
  | skip _ asked _ _ ih => exact ⟨ih.1.asked asked (begun_of_other (by simp)), trivial⟩
  | fetch _ asked _ _ ih => exact ⟨ih.1.asked asked (begun_of_other (by simp)), trivial⟩
  | enter _ _ _ ih =>
      refine ⟨ih.1, ?_⟩
      show IsUnknown _ _
      rw [conditions_amend managed]
      exact isUnknown_processing ..
  | condemned _ _ ih => exact ih
  | equipped _ _ _ ih => exact ih
  | register _ _ _ ih => exact ih
  | @step _ phase _ _ _ _ _ _ _ _ _ asked ih =>
      refine ⟨ih.1.asked asked ?_, by cases phase <;> trivial⟩
      rintro _ _ _ _ ⟨⟩
      exact ih.2
  | drop _ asked ih =>
      refine ⟨ih.1.asked asked ?_, trivial⟩
      rintro _ _ _ _ ⟨⟩
      exact ih.2
  | @written _ purpose _ _ _ _ _ _ asked ih =>
      refine ⟨ih.1.asked asked (begun_of_other (by simp)), ?_⟩
      cases purpose with
      | register => exact ih.2
      | release | unlabel => trivial
  | @unwritten _ purpose _ _ _ _ _ _ _ asked _ ih =>
      refine ⟨ih.1.asked asked (begun_of_other (by simp)), ?_⟩
      cases purpose with
      | register sub | release sub => exact marked_breakdown sub.name _
      | unlabel => trivial
  | fail _ ih => exact ⟨ih.1.snoc (begun_of_other (by simp)), trivial⟩
  | report _ _ ih => exact ⟨ih.1.snoc (begun_of_other (by simp)), ih.2⟩
  | conceal _ _ ih => exact ih
  | @unchanged _ verdict _ _ _ _ ih => exact ⟨ih.1, by cases verdict <;> trivial⟩
  | @persist _ verdict _ _ _ _ _ _ _ asked ih =>
      exact ⟨ih.1.asked asked (begun_of_other (by simp)), by cases verdict <;> trivial⟩
  | @vanish _ verdict _ _ _ _ _ _ _ _ asked _ _ ih =>
      exact ⟨ih.1.asked asked (begun_of_other (by simp)), by cases verdict <;> trivial⟩
  | refuse _ _ asked _ _ ih => exact ⟨ih.1.asked asked (begun_of_other (by simp)), trivial⟩
  | stop _ _ ih | pass _ _ _ ih | keep _ _ ih | release _ _ ih | complete _ ih => exact ⟨ih.1, trivial⟩
  | abort _ ih | conclude _ _ ih | schedule _ _ _ ih | beyond _ _ _ ih => exact ⟨ih.1, trivial⟩
  | finish _ _ ih | unlabel _ _ ih => exact ⟨ih.1, trivial⟩

end

/-- The time of a condition that is written with its status unchanged is exact but for the subroutines that had their
turn: what a step is given shows their conditions as `Unknown`, and the time is that of the reconcile unless they were
so before. -/
theorem transition_time {m : Manager σ} {world : World σ} {id : ResourceId} {s : σ} {read moment : Moment σ}
    {past rest : List (Moment σ)} {w given : Workspace} {answer : Option (Except Error Workspace)}
    {old new : Condition} (managed : m.conditions = true) (steady : m.StepsKeep Workspace.conditions)
    (found : Finds id (m.attempt world id s).trace read w) (distinct : (w.conditions.map (·.type)).Nodup)
    (split : (m.attempt world id s).trace = past ++ moment :: rest)
    (written : moment.event = .statusUpdated given answer) (before : old ∈ w.conditions)
    (after : new ∈ given.conditions) (type : new.type = old.type) (status : new.status = old.status) :
    (Seen past old → new.lastTransition = world.now read.after) ∧
      (¬Seen past old → new.lastTransition = old.lastTransition) ∧
      (Seen past old → old.status ≠ .unknown ∧ ∃ sub ∈ m.subroutines, old.type = w.phase.conditionType sub.name) ∧
      ∀ earlier ∈ past, ∀ subroutine phase shown answer, earlier.event = .stepped subroutine phase shown answer →
        old.type = w.phase.conditionType subroutine → old.status ≠ .unknown → Seen past old := by
  obtain ⟨⟨_, course⟩, _⟩ := Manager.attempt_finds found
  have present := Ledger.find?_of_mem distinct before
  obtain ⟨unique, cur, there, dates⟩ :=
    (course_dated managed steady distinct present course).1 past moment rest split given answer written
  have last := Ledger.find?_of_mem unique after
  rw [type, there] at last
  obtain rfl := Option.some.inj last
  have begun : ∀ earlier ∈ past, ∀ subroutine phase shown answer,
      earlier.event = .stepped subroutine phase shown answer → old.type = w.phase.conditionType subroutine →
        old.status ≠ .unknown → Seen past old := by
    intro earlier member subroutine phase shown answer step own known
    obtain ⟨first, later, rfl⟩ := List.append_of_mem member
    have taken := (course_marked managed course).1 first earlier (later ++ moment :: rest) (by simp [split])
    obtain ⟨entry, has, unknown⟩ := taken subroutine phase shown answer step
    refine ⟨earlier, member, shown, by simp [step, Event.given?], entry, own ▸ has, ?_⟩
    rw [unknown]
    exact Ne.symm known
  rcases dates status with ⟨unseen, time⟩ | ⟨seen, time, known, owned⟩
  · exact ⟨fun seen => absurd seen unseen, fun _ => time, fun seen => absurd seen unseen, begun⟩
  · exact ⟨fun _ => time, fun unseen => absurd seen unseen, fun _ => ⟨known, owned⟩, begun⟩

section

open Reconciler.Shelf

def tending : Manager (Shelf site) where
  operator := "converge"
  controller := "workspaces"
  subroutines := [worker "namespace" [] leave leave]
  conditions := true
  faultless := by decide

def ready : Condition :=
  ⟨Condition.ready, .true, Ledger.completeReason, "The resource is ready", .epoch⟩

def tended : Condition :=
  ⟨"namespace_Ready", .true, Ledger.completeReason, "The subroutine is complete", .epoch⟩

def retended : Condition :=
  { tended with lastTransition := nextDay }

def standing : Workspace :=
  { web with status := some { conditions := [ready, tended] } }

def rewritten : Workspace :=
  ((standing.setConditions [ready, retended]).setFinalizers []).setResourceVersion (some "1")

def ran : Ran (Shelf site) (Except Stop Finished) :=
  tending.attempt (Shelf.world site) site (stocked standing [] nextDay)

def status? : Event → Option Workspace
  | .statusUpdated given _ => some given
  | _ => none

theorem statusUpdated_of_status? {event : Event} {given : Workspace} (h : status? event = some given) :
    ∃ answer, event = .statusUpdated given answer := by
  unfold status? at h
  split at h
  · exact ⟨_, by rw [Option.some.inj h]⟩
  · simp at h

theorem stepped_of_starts {event : Event} {subroutine : String} (h : event.starts subroutine = true) :
    ∃ given answer, event = .stepped subroutine .process given answer := by
  unfold Event.starts at h
  split at h
  · exact ⟨_, _, by rw [of_decide_eq_true h]⟩
  · simp at h

theorem ran_splits :
    ∃ past stepped between written rest, ran.trace = past ++ stepped :: between ++ written :: rest ∧
      stepped.event.starts "namespace" = true ∧
      status? written.event = some rewritten :=
  ⟨_, _, _, _, _, split_at (by decide : 3 < 6) (by decide +kernel), by decide +kernel, by decide +kernel⟩

theorem transition_time_next_day :
    ∃ past moment rest given answer, ran.trace = past ++ moment :: rest ∧
      moment.event = .statusUpdated given answer ∧ retended ∈ given.conditions ∧
      retended.type = tended.type ∧ retended.status = tended.status ∧
      retended.lastTransition ≠ tended.lastTransition ∧
      ∃ read, Finds site ran.trace read (standing.setResourceVersion (some "1")) ∧
        retended.lastTransition = (Shelf.world site).now read.after := by
  obtain ⟨past, stepped, between, moment, rest, split, start, status⟩ := ran_splits
  obtain ⟨given, answer, step⟩ := stepped_of_starts start
  obtain ⟨response, write⟩ := statusUpdated_of_status? status
  have steady : tending.StepsKeep Workspace.conditions := by
    intro sub member phase w s answer s' ends
    obtain rfl : sub = _ := by simpa [tending] using member
    obtain ⟨_, same | same⟩ := answer_of_worker ends <;> cases same <;> rfl
  have found : Finds site ran.trace (ran.trace.get ⟨1, by decide +kernel⟩) (standing.setResourceVersion (some "1")) :=
    finds_get (by decide +kernel)
  have written : retended ∈ rewritten.conditions := by decide
  obtain ⟨moved, _, _, seen⟩ := transition_time rfl steady found (by decide) split write
    (show tended ∈ (standing.setResourceVersion (some "1")).conditions by decide) written rfl rfl
  exact ⟨_, moment, rest, _, response, split, write, written, rfl, rfl, by decide, _, found,
    moved (seen stepped (by simp) "namespace" .process given answer step (by decide) (by decide))⟩

end

end TransitionTime

end Reconciler
