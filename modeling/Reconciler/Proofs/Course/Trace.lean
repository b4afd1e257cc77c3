import Mathlib.Data.List.Nodup
import Reconciler.Proofs.Course.Basic
import Reconciler.Proofs.Split

set_option autoImplicit false

namespace Reconciler

variable {σ α : Type}

namespace Purpose

def agenda : Purpose σ → List (Subroutine σ)
  | register s todo _ => s :: todo
  | release s todo _ _ => s :: todo
  | unlabel _ => []

end Purpose

namespace Stage

def agenda : Stage σ → List (Subroutine σ)
  | sweeping todo _ => todo
  | turning s todo _ => s :: todo
  | stepping _ s todo _ => s :: todo
  | cleaned s todo _ _ => s :: todo
  | settled s todo _ _ => s :: todo
  | writing purpose => purpose.agenda
  | reporting _ next => next.agenda
  | opening | failed .. | persisting _ | unlabelling _ | ended _ => []

@[simp] theorem agenda_afterStep (phase : Phase) (s : Subroutine σ) (todo : List (Subroutine σ)) (outcome : Outcome)
    (result : Except OperatorError Outcome) : (afterStep phase s todo outcome result).agenda = s :: todo := by
  cases phase <;> rfl

@[simp] theorem agenda_breakdown (subroutine : String) (error : Error) :
    (breakdown subroutine error : Stage σ).agenda = [] := by
  unfold breakdown
  split <;> rfl

@[simp] theorem agenda_purpose_next (purpose : Purpose σ) : purpose.next.agenda = purpose.agenda := by
  cases purpose <;> rfl

@[simp] theorem agenda_refused (purpose : Purpose σ) (error : Error) : (purpose.refused error).agenda = [] := by
  cases purpose <;> simp [Purpose.refused, agenda]

@[simp] theorem agenda_verdict_next (verdict : Verdict) : (verdict.next : Stage σ).agenda = [] := by
  cases verdict <;> rfl

end Stage

theorem Course.agenda_suffix {c : Cycle σ} {id : ResourceId} {now : Timestamp} {fetched : Workspace} {start : σ}
    {t : List (Moment σ)} {stage : Stage σ} {w : Workspace} {s : σ}
    (course : Course c id now fetched start t stage w s) : stage.agenda <:+ c.manager.subroutines := by
  induction course with
  | start | absent | skip | unread => exact List.nil_suffix
  | fetch => exact List.suffix_rfl
  | pass _ _ _ ih => exact (List.suffix_cons ..).trans ih
  | complete _ ih => exact (List.suffix_cons ..).trans ih
  | note _ _ ih => exact ih
  | enter _ _ _ ih | equipped _ _ _ ih | register _ _ _ ih => exact ih
  | condemned _ _ ih | keep _ _ ih | release _ _ ih => exact ih
  | report _ _ ih | conceal _ _ ih => exact ih
  | step _ _ ih => simpa [Stage.agenda] using ih
  | written _ _ ih => simpa [Stage.agenda] using ih
  | _ => simp [Stage.agenda, Purpose.agenda]

theorem Course.mem_of_agenda {c : Cycle σ} {id : ResourceId} {now : Timestamp} {fetched : Workspace} {start : σ}
    {t : List (Moment σ)} {stage : Stage σ} {w : Workspace} {s : σ}
    (course : Course c id now fetched start t stage w s) {sub : Subroutine σ} (ahead : sub ∈ stage.agenda) :
    sub ∈ c.manager.subroutines :=
  course.agenda_suffix.subset ahead

theorem Manager.eq_of_name (m : Manager σ) {a b : Subroutine σ} (ha : a ∈ m.subroutines) (hb : b ∈ m.subroutines)
    (same : a.name = b.name) : a = b :=
  List.inj_on_of_nodup_map m.names_nodup ha hb same

-- No step, whatever it answers, changes what the view shows of the workspace it was given.
def Manager.StepsKeep (m : Manager σ) (view : Workspace → α) : Prop :=
  ∀ sub ∈ m.subroutines, ∀ phase w s answer s',
    (sub.step phase w s).Ends (some answer) s' → view answer.workspace = view w

theorem conditions_amend {c : Cycle σ} (managed : c.manager.conditions = true) (change : Ledger → Ledger × Bool)
    (w : Workspace) : (c.amend change w).conditions = (change w.conditions).1 := by
  rw [Cycle.amend_of_conditions managed]
  rfl

theorem conditions_releaseIfIdle (tokens : List Finalizer.Token) (result : Except OperatorError Outcome)
    (w : Workspace) : (w.releaseIfIdle tokens result).1.conditions = w.conditions :=
  Workspace.releaseIfIdle_keeps Workspace.conditions (fun _ _ => rfl) tokens result w

theorem conditions_scheduleNext? {w scheduled : Workspace} {now : Timestamp} {minutes : Fin Spread.windowMinutes}
    (h : Spread.scheduleNext? w now minutes = some scheduled) : scheduled.conditions = w.conditions := by
  obtain ⟨next, _, rfl⟩ := Option.map_eq_some_iff.mp h
  rfl

def Throughout (good : List (Moment σ) → Moment σ → Prop) (t : List (Moment σ)) : Prop :=
  ∀ past moment rest, t = past ++ moment :: rest → good past moment

namespace Throughout

variable {good : List (Moment σ) → Moment σ → Prop} {t piece : List (Moment σ)} {moment : Moment σ}

theorem nil : Throughout good [] := by
  intro past moment rest split
  simp at split

theorem snoc (before : Throughout good t) (last : good t moment) : Throughout good (t ++ [moment]) := by
  intro past m rest split
  rcases split_snoc split with ⟨rfl, rfl⟩ | ⟨front, whole⟩
  · exact last
  · exact before past m front whole

theorem append (before : Throughout good t) (after : Throughout (fun past => good (t ++ past)) piece) :
    Throughout good (t ++ piece) := by
  induction piece using List.reverseRecOn with
  | nil => simpa using before
  | append_singleton piece moment ih =>
      have last := after piece moment [] rfl
      rw [← List.append_assoc]
      refine snoc (ih fun past m rest split => ?_) last
      exact after past m (rest ++ [moment]) (by simp [split])

end Throughout

def Event.starts (subroutine : String) : Event → Bool
  | stepped name .process _ _ => name = subroutine
  | _ => false

def Event.given? : Event → Option Workspace
  | updated given _ | statusUpdated given _ | stepped _ _ given _ => some given
  | _ => none

def lastCall (t : List (Moment σ)) : Option Event :=
  ((t.map (·.event)).filter Event.isCall).getLast?

theorem lastCall_snoc {t : List (Moment σ)} {moment : Moment σ} (call : moment.event.isCall = true) :
    lastCall (t ++ [moment]) = some moment.event := by
  simp [lastCall, call]

theorem lastCall_snoc_of_not {t : List (Moment σ)} {moment : Moment σ} (other : moment.event.isCall = false) :
    lastCall (t ++ [moment]) = lastCall t := by
  simp [lastCall, other]

theorem Run.Asked.ends {stop : σ → Bool} {call : σ → Call σ α} {event : Option α → Event} {s s' : σ}
    {answer : Option α} {piece : List (Moment σ)} (asked : Run.Asked stop call event s answer piece s') :
    (answer = none ∧ piece = [] ∧ s' = s) ∨ (piece = [⟨event answer, s, s'⟩] ∧ (call s).Ends answer s') := by
  cases asked with
  | unasked => exact .inl ⟨rfl, rfl, rfl⟩
  | asked _ finished =>
      have ends := (call s).ends_finishUnless stop
      rw [finished] at ends
      exact .inr ⟨rfl, ends⟩

theorem Run.Asked.answered {stop : σ → Bool} {call : σ → Call σ α} {event : Option α → Event} {s s' : σ}
    {value : α} {piece : List (Moment σ)} (asked : Run.Asked stop call event s (some value) piece s') :
    piece = [⟨event (some value), s, s'⟩] ∧ (call s).Ends (some value) s' := by
  rcases asked.ends with ⟨absent, _, _⟩ | answered
  · simp at absent
  · exact answered

theorem Manager.StepsKeep.asked {m : Manager σ} {view : Workspace → α} {sub : Subroutine σ} {stop : σ → Bool}
    {phase : Phase} {w : Workspace} {event : Option StepAnswer → Event} {s s' : σ} {answer : StepAnswer}
    {piece : List (Moment σ)} (steady : m.StepsKeep view) (member : sub ∈ m.subroutines)
    (asked : Run.Asked stop (sub.step phase w) event s (some answer) piece s') :
    view answer.workspace = view w :=
  steady sub member phase w s answer s' asked.answered.2

theorem Throughout.asked {good : List (Moment σ) → Moment σ → Prop} {t piece : List (Moment σ)} {stop : σ → Bool}
    {call : σ → Call σ α} {event : Option α → Event} {s s' : σ} {answer : Option α} (before : Throughout good t)
    (asked : Run.Asked stop call event s answer piece s') (last : good t ⟨event answer, s, s'⟩) :
    Throughout good (t ++ piece) := by
  rcases asked.ends with ⟨_, rfl, _⟩ | ⟨rfl, _⟩
  · simpa using before
  · exact before.snoc last

-- What every call meets at the stage that makes it, and every other event anyway, holds throughout a course.
theorem Course.throughout {c : Cycle σ} {id : ResourceId} {now : Timestamp} {fetched : Workspace} {start : σ}
    {good : List (Moment σ) → Moment σ → Prop} {t : List (Moment σ)} {stage : Stage σ} {w : Workspace} {s : σ}
    (quiet : ∀ past moment, moment.event.isCall = false → good past moment)
    (read : ∀ {t w s answer s'}, Course c id now fetched start t .opening w s → good t ⟨.fetched id answer, s, s'⟩)
    (step : ∀ {t phase sub todo outcome w s answer s'},
      Course c id now fetched start t (.stepping phase sub todo outcome) w s →
        good t ⟨.stepped sub.name phase w answer, s, s'⟩)
    (update : ∀ {t purpose w s answer s'},
      Course c id now fetched start t (.writing purpose) w s → good t ⟨.updated w answer, s, s'⟩)
    (status : ∀ {t verdict w s answer s'},
      Course c id now fetched start t (.persisting verdict) w s → good t ⟨.statusUpdated w answer, s, s'⟩)
    (course : Course c id now fetched start t stage w s) : Throughout good t := by
  induction course with
  | start => exact .nil
  | note | fail => exact .snoc (by assumption) (quiet _ _ rfl)
  | report _ _ ih => exact ih.snoc (quiet _ _ rfl)
  | unread course asked _ ih => exact ih.asked asked (read course)
  | absent course asked ih => exact ih.asked asked (read course)
  | skip course asked _ _ ih => exact ih.asked asked (read course)
  | fetch course asked _ _ ih => exact ih.asked asked (read course)
  | step course asked ih => exact ih.asked asked (step course)
  | drop course asked ih => exact ih.asked asked (step course)
  | written course asked ih => exact ih.asked asked (update course)
  | unwritten course asked _ ih => exact ih.asked asked (update course)
  | persist course _ asked ih => exact ih.asked asked (status course)
  | vanish course _ asked _ _ ih => exact ih.asked asked (status course)
  | refuse course _ asked _ _ ih => exact ih.asked asked (status course)
  | _ => assumption

end Reconciler
