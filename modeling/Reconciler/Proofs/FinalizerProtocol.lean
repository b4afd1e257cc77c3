import Mathlib.Data.List.Pairwise
import Reconciler.Proofs.Chronicle.Shelf
import Reconciler.Proofs.Course.Complete
import Reconciler.Proofs.Course.Trace

set_option autoImplicit false

namespace Reconciler

variable {σ : Type}

namespace Event

def cleans (subroutine : String) : Event → Bool
  | stepped name .finalize _ (some answer) =>
      name = subroutine && (match answer.result with
        | .ok outcome => outcome.isDone
        | .error _ => false)
  | _ => false

theorem not_starts_of_cleans {subroutine other : String} {event : Event} (h : event.cleans subroutine = true) :
    event.starts other = false := by
  unfold cleans at h
  split at h
  · rfl
  · simp at h

theorem exists_of_cleans {subroutine : String} {event : Event} (h : event.cleans subroutine = true) :
    ∃ given answer outcome, event = .stepped subroutine .finalize given (some answer) ∧
      answer.result = .ok outcome ∧ outcome.isDone = true := by
  unfold cleans at h
  split at h
  · rename_i name given answer
    simp only [Bool.and_eq_true, decide_eq_true_eq] at h
    obtain ⟨rfl, done⟩ := h
    rcases result : answer.result with error | outcome
    · simp [result] at done
    · rw [result] at done
      exact ⟨given, answer, outcome, rfl, result, done⟩
  · simp at h

end Event

namespace FinalizerProtocol

def tokens (m : Manager σ) : List Finalizer.Token :=
  m.subroutines.flatMap (·.finalizers)

def Apart (m : Manager σ) : Prop :=
  m.subroutines.Pairwise fun a b => ∀ token ∈ a.finalizers, token ∉ b.finalizers

instance (m : Manager σ) : Decidable (Apart m) :=
  inferInstanceAs (Decidable (List.Pairwise _ _))

theorem Apart.owner {m : Manager σ} (apart : Apart m) {a b : Subroutine σ} (ha : a ∈ m.subroutines)
    (hb : b ∈ m.subroutines) {token : Finalizer.Token} (mine : token ∈ a.finalizers) (yours : token ∈ b.finalizers) :
    a = b := by
  have symmetric : Std.Symm fun a b : Subroutine σ => ∀ token ∈ a.finalizers, token ∉ b.finalizers :=
    ⟨fun _ _ apart token mine yours => apart token yours mine⟩
  by_contra distinct
  exact List.Pairwise.forall apart ha hb distinct token mine yours

def present (stored : Option Workspace) : List Finalizer.Token :=
  (stored.map (·.finalizers)).getD []

-- Others keep off the tokens of the manager and do not make the resource anew. A call that fails has no effect. A
-- write of metadata puts its finalizers in place, and lets the resource go only when there are none.
def rules (m : Manager σ) : Rules where
  others d := ∃ stored, d.found = some stored ∧
    ∀ left, d.left = some left → ∀ token ∈ tokens m, token ∈ left.finalizers ↔ token ∈ stored.finalizers
  update given answer d := (∀ error, answer ≠ some (.error error)) ∧ d.found.isSome = true ∧
    present d.left = given.finalizers
  updateStatus _ answer d := (∀ error, answer ≠ some (.error error)) ∧
    ∃ stored left, d.found = some stored ∧ d.left = some left ∧ left.finalizers = stored.finalizers

-- What is taken off at this moment is taken off by an update right after the clean-up of its owner was done.
def Earned (m : Manager σ) (chronicle : σ → Chronicle) (past : List (Moment σ)) (moment : Moment σ) : Prop :=
  ∀ d ∈ Chronicle.own (chronicle moment.before) (chronicle moment.after), ∀ sub ∈ m.subroutines,
    ∀ token ∈ sub.finalizers, token ∈ present d.found → token ∉ present d.left →
      (∃ given answer, moment.event = .updated given answer) ∧
        ∃ event, lastCall past = some event ∧ event.cleans sub.name = true

def owes (subroutine : String) (t : List (Moment σ)) : Bool :=
  t.foldl (fun owing moment =>
    if moment.event.starts subroutine then true
    else if moment.event.cleans subroutine then false
    else owing) false

def Paid (m : Manager σ) (chronicle : σ → Chronicle) (past : List (Moment σ)) (moment : Moment σ) : Prop :=
  ∀ d ∈ Chronicle.own (chronicle moment.before) (chronicle moment.after), ∀ sub ∈ m.subroutines,
    owes sub.name past = true → ∀ token ∈ sub.finalizers, token ∈ present d.left

structure Guard (m : Manager σ) (chronicle : σ → Chronicle) (life t : List (Moment σ)) (l : Chronicle) : Prop where
  earned : Throughout (Earned m chronicle) t
  paid : Throughout (fun past => Paid m chronicle (life ++ past)) t
  owed : ∀ sub ∈ m.subroutines, owes sub.name (life ++ t) = true → ∀ stored, l.stored = some stored →
    ∀ token ∈ sub.finalizers, token ∈ stored.finalizers

structure Agrees (m : Manager σ) (id : ResourceId) (w : Workspace) (l : Chronicle) : Prop where
  identity : w.id = id
  same : ∀ stored, l.stored = some stored → ∀ token ∈ tokens m, token ∈ w.finalizers ↔ token ∈ stored.finalizers

def Excused (m : Manager σ) (t : List (Moment σ)) (w : Workspace) (l : Chronicle) : Prop :=
  ∀ stored, l.stored = some stored → ∀ sub ∈ m.subroutines, ∀ token ∈ sub.finalizers,
    token ∈ stored.finalizers → token ∉ w.finalizers →
      ∃ event, lastCall t = some event ∧ event.cleans sub.name = true

section

variable {m : Manager σ} {chronicle : σ → Chronicle} {id : ResourceId} {life t : List (Moment σ)} {moment : Moment σ}
variable {l l' : Chronicle} {w w' : Workspace} {s s' : σ}

theorem mem_tokens {sub : Subroutine σ} (member : sub ∈ m.subroutines) {token : Finalizer.Token}
    (owned : token ∈ sub.finalizers) : token ∈ tokens m :=
  List.mem_flatMap.mpr ⟨sub, member, owned⟩

theorem owes_snoc (subroutine : String) (t : List (Moment σ)) (moment : Moment σ) :
    owes subroutine (t ++ [moment]) =
      if moment.event.starts subroutine then true
      else if moment.event.cleans subroutine then false
      else owes subroutine t := by
  simp [owes]

theorem owes_of_snoc {subroutine : String} (owing : owes subroutine (t ++ [moment]) = true) :
    moment.event.starts subroutine = true ∨ owes subroutine t = true := by
  rw [owes_snoc] at owing
  split at owing
  · exact .inl (by assumption)
  · split at owing
    · simp at owing
    · exact .inr owing

theorem owes_of_started {subroutine : String} {past : List (Moment σ)} {started : Moment σ} {rest : List (Moment σ)}
    (start : started.event.starts subroutine = true)
    (unclean : ∀ moment ∈ rest, moment.event.cleans subroutine = false) :
    owes subroutine (past ++ started :: rest) = true := by
  induction rest using List.reverseRecOn with
  | nil => simp [owes_snoc, start]
  | append_singleton rest moment ih =>
      have before := ih fun earlier member => unclean earlier (by simp [member])
      have last := unclean moment (by simp)
      have joined : past ++ started :: (rest ++ [moment]) = (past ++ started :: rest) ++ [moment] := by simp
      rw [joined, owes_snoc]
      simp [last, before]

theorem not_owes_of_lastCall {subroutine : String} {event : Event} (last : lastCall t = some event)
    (clean : event.cleans subroutine = true) : owes subroutine (life ++ t) = false := by
  induction t using List.reverseRecOn with
  | nil => simp [lastCall] at last
  | append_singleton t moment ih =>
      rw [← List.append_assoc, owes_snoc]
      by_cases call : moment.event.isCall = true
      · rw [lastCall_snoc call] at last
        obtain rfl := Option.some.inj last
        simp [Event.not_starts_of_cleans clean, clean]
      · rw [lastCall_snoc_of_not (by simpa using call)] at last
        have quiet : moment.event.starts subroutine = false ∧ moment.event.cleans subroutine = false := by
          revert call
          cases moment.event <;> simp [Event.isCall, Event.starts, Event.cleans]
        simp [quiet, ih last]

theorem tokens_of_drifts (drifts : Chronicle.Drifts (rules m).others l l') (linked : l'.Linked) {left : Workspace}
    (there : l'.stored = some left) :
    ∃ stored, l.stored = some stored ∧ ∀ token ∈ tokens m, token ∈ left.finalizers ↔ token ∈ stored.finalizers := by
  refine drifts.stored (fun last => ∀ left, last = some left → ∃ stored, l.stored = some stored ∧
    ∀ token ∈ tokens m, token ∈ left.finalizers ↔ token ∈ stored.finalizers) linked ?_ ?_ left there
  · rintro d ⟨found, was, kept⟩ before left now
    obtain ⟨stored, first, same⟩ := before found was
    exact ⟨stored, first, fun token mine => (kept left now token mine).trans (same token mine)⟩
  · intro left same
    exact ⟨left, same, fun _ _ => Iff.rfl⟩

theorem Guard.drift (guard : Guard m chronicle life t l) (drifts : Chronicle.Drifts (rules m).others l l')
    (linked : l'.Linked) : Guard m chronicle life t l' := by
  refine ⟨guard.earned, guard.paid, fun sub member owing left there token owned => ?_⟩
  obtain ⟨stored, was, same⟩ := tokens_of_drifts drifts linked there
  exact (same token (mem_tokens member owned)).mpr (guard.owed sub member owing stored was token owned)

theorem Agrees.drift (agrees : Agrees m id w l) (drifts : Chronicle.Drifts (rules m).others l l')
    (linked : l'.Linked) : Agrees m id w l' := by
  refine ⟨agrees.identity, fun left there token mine => ?_⟩
  obtain ⟨stored, was, same⟩ := tokens_of_drifts drifts linked there
  exact (agrees.same stored was token mine).trans (same token mine).symm

theorem Excused.drift (excused : Excused m t w l) (drifts : Chronicle.Drifts (rules m).others l l')
    (linked : l'.Linked) : Excused m t w l' := by
  intro left there sub member token owned kept lacking
  obtain ⟨stored, was, same⟩ := tokens_of_drifts drifts linked there
  exact excused stored was sub member token owned ((same token (mem_tokens member owned)).mp kept) lacking

theorem Agrees.excused (agrees : Agrees m id w l) : Excused m t w l := by
  intro stored there sub member token owned kept lacking
  exact absurd ((agrees.same stored there token (mem_tokens member owned)).mpr kept) lacking

theorem Guard.snoc (guard : Guard m chronicle life t l)
    (idle : Chronicle.own (chronicle moment.before) (chronicle moment.after) = [])
    (ready : ∀ sub ∈ m.subroutines, moment.event.starts sub.name = true → ∀ stored, l.stored = some stored →
      ∀ token ∈ sub.finalizers, token ∈ stored.finalizers) : Guard m chronicle life (t ++ [moment]) l := by
  refine ⟨guard.earned.snoc ?_, guard.paid.snoc ?_, fun sub member owing => ?_⟩
  · intro d written
    simp [idle] at written
  · intro d written
    simp [idle] at written
  · rw [← List.append_assoc] at owing
    rcases owes_of_snoc owing with start | before
    · exact ready sub member start
    · exact guard.owed sub member before

theorem mem_present {stored : Option Workspace} {token : Finalizer.Token} :
    token ∈ present stored ↔ ∃ w, stored = some w ∧ token ∈ w.finalizers := by
  cases stored <;> simp [present]

theorem Guard.write {event : Event} {past : Chronicle} {d : Deed}
    (guard : Guard m chronicle life t (chronicle s)) (linked : (chronicle s').Linked)
    (early : Chronicle.Drifts (rules m).others (chronicle s) past) (own : d.own = true) (there : d.found.isSome = true)
    (late : Chronicle.Drifts (rules m).others (past ++ [d]) (chronicle s'))
    (silent : ∀ subroutine, event.starts subroutine = false)
    (spares : ∀ sub ∈ m.subroutines, ∀ token ∈ sub.finalizers, token ∈ present d.found → token ∉ present d.left →
      (∃ given answer, event = .updated given answer) ∧
        ∃ last, lastCall t = some last ∧ last.cleans sub.name = true) :
    Guard m chronicle life (t ++ [⟨event, s, s'⟩]) (chronicle s') := by
  have joined := late.linked linked
  have written := Chronicle.own_done early own late
  have kept (sub : Subroutine σ) (member : sub ∈ m.subroutines) (owing : owes sub.name (life ++ t) = true)
      (token : Finalizer.Token) (owned : token ∈ sub.finalizers) : token ∈ present d.left := by
    obtain ⟨stored, found⟩ := Option.isSome_iff_exists.mp there
    have before := (guard.drift early joined.past).owed sub member owing stored (joined.found ▸ found) token owned
    by_contra lost
    obtain ⟨_, last, called, clean⟩ := spares sub member token owned (mem_present.mpr ⟨stored, found, before⟩) lost
    rw [not_owes_of_lastCall called clean] at owing
    simp at owing
  have after : Guard m chronicle life (t ++ [⟨event, s, s'⟩]) (past ++ [d]) := by
    refine ⟨guard.earned.snoc ?_, guard.paid.snoc ?_, fun sub member owing stored last token owned => ?_⟩
    · intro d' member
      obtain rfl : d' = d := by simpa [written] using member
      exact spares
    · intro d' member
      obtain rfl : d' = d := by simpa [written] using member
      exact kept
    · rw [← List.append_assoc] at owing
      rcases owes_of_snoc owing with start | before
      · simp [silent] at start
      · rw [Chronicle.stored_snoc] at last
        obtain ⟨w, left, held⟩ := mem_present.mp (kept sub member before token owned)
        cases last.symm.trans left
        exact held
  exact after.drift late linked

theorem Guard.update {answer : Option (Except Error Workspace)} (guard : Guard m chronicle life t (chronicle s))
    (linked : (chronicle s').Linked) (excused : Excused m t w (chronicle s))
    (writes : Chronicle.Writes (rules m).others ((rules m).update w answer) answer (chronicle s) (chronicle s')) :
    Guard m chronicle life (t ++ [⟨.updated w answer, s, s'⟩]) (chronicle s') ∧
      ∀ stored, answer = some (.ok stored) → ∀ left, (chronicle s').stored = some left →
        ∀ token ∈ tokens m, token ∈ w.finalizers ↔ token ∈ left.finalizers := by
  cases writes with
  | idle drifts refused =>
      refine ⟨(guard.drift drifts linked).snoc drifts.own (by simp [Event.starts]), fun stored success => ?_⟩
      exact absurd success (refused stored)
  | done past d early own effect written late =>
      obtain ⟨_, there, placed⟩ := effect
      have joined := late.linked linked
      refine ⟨guard.write linked early own there late (by simp [Event.starts]) ?_, ?_⟩
      · intro sub member token owned kept lost
        obtain ⟨stored, found, held⟩ := mem_present.mp kept
        rw [placed] at lost
        have excuse := excused.drift early joined.past stored (joined.found ▸ found) sub member token owned held lost
        exact ⟨⟨w, answer, rfl⟩, excuse⟩
      · intro _ _ left now token mine
        obtain ⟨stored, was, same⟩ := tokens_of_drifts late linked now
        rw [Chronicle.stored_snoc] at was
        rw [same token mine, ← placed]
        simp [present, was]

theorem Guard.updateStatus {answer : Option (Except Error Workspace)}
    (guard : Guard m chronicle life t (chronicle s)) (linked : (chronicle s').Linked)
    (writes : Chronicle.Writes (rules m).others ((rules m).updateStatus w answer) answer (chronicle s) (chronicle s')) :
    Guard m chronicle life (t ++ [⟨.statusUpdated w answer, s, s'⟩]) (chronicle s') ∧
      ∀ {id w'}, Agrees m id w' (chronicle s) → Agrees m id w' (chronicle s') := by
  cases writes with
  | idle drifts _ =>
      exact ⟨(guard.drift drifts linked).snoc drifts.own (by simp [Event.starts]), fun agrees =>
        agrees.drift drifts linked⟩
  | done past d early own effect _ late =>
      obtain ⟨_, stored, left, found, stays, same⟩ := effect
      have joined := late.linked linked
      refine ⟨guard.write linked early own (by simp [found]) late (by simp [Event.starts]) ?_, fun agrees => ?_⟩
      · intro sub member token owned kept lost
        simp [present, found, stays, same] at kept lost
        exact absurd kept lost
      · refine Agrees.drift ⟨agrees.identity, fun last there token mine => ?_⟩ late linked
        rw [Chronicle.stored_snoc, stays] at there
        obtain rfl := Option.some.inj there
        rw [same]
        exact (agrees.drift early joined.past).same stored (joined.found ▸ found) token mine

end

def Spent : Stage σ → Prop
  | .ended _ | .failed .. => True
  | _ => False

def Equipped (w : Workspace) : Purpose σ → Prop
  | .register sub _ _ => ∀ token ∈ sub.finalizers, token ∈ w.finalizers
  | _ => True

def Position (m : Manager σ) (id : ResourceId) (t : List (Moment σ)) (w : Workspace) (l : Chronicle) : Stage σ → Prop
  | .sweeping .. | .turning .. | .settled .. | .unlabelling _ | .persisting (.outcome _) => Agrees m id w l
  | .stepping phase sub _ _ =>
      Agrees m id w l ∧ (phase = .process → ∀ token ∈ sub.finalizers, token ∈ w.finalizers)
  | .cleaned sub _ _ result =>
      Agrees m id w l ∧ ∀ outcome, result = .ok outcome → outcome.isDone = true →
        ∃ event, lastCall t = some event ∧ event.cleans sub.name = true
  | .writing purpose => w.id = id ∧ Excused m t w l ∧ Equipped w purpose
  | .reporting _ next => Spent next
  | .opening | .failed .. | .persisting (.failure _) | .ended _ => True

section

variable {m : Manager σ} {id : ResourceId} {t : List (Moment σ)} {moment : Moment σ} {l : Chronicle}
variable {w w' : Workspace} {stage : Stage σ}

theorem position_of_spent (spent : Spent stage) : Position m id t w l stage := by
  cases stage <;> simp_all [Spent, Position]

theorem spent_breakdown (subroutine : String) (error : Error) : Spent (.breakdown subroutine error : Stage σ) := by
  unfold Stage.breakdown
  split <;> trivial

theorem spent_refused (purpose : Purpose σ) (error : Error) : Spent (purpose.refused error) := by
  cases purpose with
  | register s todo outcome => exact spent_breakdown s.name error
  | release s todo outcome result => exact spent_breakdown s.name error
  | unlabel outcome => trivial

theorem Agrees.alike (agrees : Agrees m id w l) (identity : w'.id = w.id) (same : w'.finalizers = w.finalizers) :
    Agrees m id w' l := by
  refine ⟨identity.trans agrees.identity, ?_⟩
  rw [same]
  exact agrees.same

theorem Agrees.unmoved (agrees : Agrees m id w l) (same : w'.metadata = w.metadata) : Agrees m id w' l := by
  apply agrees.alike
  · simp [Workspace.id, Workspace.displayName, same]
  · simp [Workspace.finalizers, same]

theorem Agrees.amend {c : Cycle σ} (agrees : Agrees m id w l) (change : Ledger → Ledger × Bool) :
    Agrees m id (c.amend change w) l :=
  agrees.unmoved (Cycle.metadata_amend ..)

theorem Agrees.afterStep {sub : Subroutine σ} {phase : Phase} {todo : List (Subroutine σ)} {outcome : Outcome}
    {given : Workspace} {answer : StepAnswer} {s s' : σ} (agrees : Agrees m id w l) :
    Position m id (t ++ [⟨.stepped sub.name phase given (some answer), s, s'⟩]) w l
      (.afterStep phase sub todo outcome answer.result) := by
  cases phase with
  | process => exact agrees
  | finalize =>
      refine ⟨agrees, fun outcome result done => ⟨_, lastCall_snoc rfl, ?_⟩⟩
      simp [Event.cleans, result, done]

theorem id_releaseIfIdle (tokens : List Finalizer.Token) (result : Except OperatorError Outcome) (w : Workspace) :
    (w.releaseIfIdle tokens result).1.id = w.id :=
  Workspace.releaseIfIdle_keeps Workspace.id (fun _ _ => rfl) tokens result w

theorem Agrees.kept {tokens : List Finalizer.Token} {result : Except OperatorError Outcome}
    (agrees : Agrees m id w l) (unchanged : (w.releaseIfIdle tokens result).2 = false) :
    Agrees m id (w.releaseIfIdle tokens result).1 l := by
  apply agrees.alike
  · exact id_releaseIfIdle tokens result w
  · rw [Workspace.finalizers_releaseIfIdle]
    rw [Workspace.changed_releaseIfIdle] at unchanged
    exact Finalizer.releaseIfIdle_of_unchanged unchanged

theorem Agrees.released {sub : Subroutine σ} {result : Except OperatorError Outcome}
    (agrees : Agrees m id w l)
    (apart : Apart m)
    (member : sub ∈ m.subroutines) (changed : (w.releaseIfIdle sub.finalizers result).2 = true)
    (cleaned : ∀ outcome, result = .ok outcome → outcome.isDone = true →
      ∃ event, lastCall t = some event ∧ event.cleans sub.name = true) :
    Excused m t (w.releaseIfIdle sub.finalizers result).1 l := by
  intro stored there other among token owned kept lacking
  rw [Workspace.changed_releaseIfIdle] at changed
  obtain ⟨outcome, rfl, done, filtered⟩ := Finalizer.releaseIfIdle_of_changed changed
  have held := (agrees.same stored there token (mem_tokens among owned)).mpr kept
  have taken : token ∈ sub.finalizers := by
    rw [Workspace.finalizers_releaseIfIdle, filtered] at lacking
    simpa [held] using lacking
  rw [apart.owner among member owned taken]
  exact cleaned outcome rfl done

theorem Agrees.next {purpose : Purpose σ} (agrees : Agrees m id w l) (equipped : Equipped w purpose) :
    Position m id t w l purpose.next := by
  cases purpose with
  | register => exact ⟨agrees, fun _ => equipped⟩
  | release => exact agrees
  | unlabel => trivial
theorem Position.snoc (position : Position m id t w l stage) (other : moment.event.isCall = false) :
    Position m id (t ++ [moment]) w l stage := by
  cases stage with
  | cleaned => simpa [Position, lastCall_snoc_of_not other] using position
  | writing => simpa [Position, Excused, lastCall_snoc_of_not other] using position
  | persisting verdict => cases verdict <;> exact position
  | _ => exact position

end

section

variable {c : Cycle σ} {chronicle : σ → Chronicle} {id : ResourceId} {now : Timestamp} {fetched : Workspace}
variable {start s s' : σ} {life t piece : List (Moment σ)} {w : Workspace} {stage : Stage σ}

theorem Guard.updated {answer : Option (Except Error Workspace)}
    (recorded : Recorded c.manager c.world id chronicle (rules c.manager))
    (guard : Guard c.manager chronicle life t (chronicle s)) (identity : w.id = id)
    (excused : Excused c.manager t w (chronicle s))
    (asked : Run.Asked c.world.cancelled (c.world.update w) (.updated w) s answer piece s') :
    Guard c.manager chronicle life (t ++ piece) (chronicle s') ∧
      ∀ stored, answer = some (.ok stored) → Agrees c.manager id (w.adoptVersion stored) (chronicle s') := by
  rcases asked.ends with ⟨rfl, rfl, rfl⟩ | ⟨rfl, ends⟩
  · exact ⟨by simpa using guard, by simp⟩
  · obtain ⟨after, same⟩ := guard.update (recorded.linked s') excused (recorded.update ends identity)
    exact ⟨after, fun stored success => ⟨identity, same stored success⟩⟩

theorem Guard.statusUpdated {answer : Option (Except Error Workspace)}
    (recorded : Recorded c.manager c.world id chronicle (rules c.manager))
    (guard : Guard c.manager chronicle life t (chronicle s))
    (asked : Run.Asked c.world.cancelled (c.world.updateStatus w) (.statusUpdated w) s answer piece s') :
    Guard c.manager chronicle life (t ++ piece) (chronicle s') ∧
      ∀ {w'}, Agrees c.manager id w' (chronicle s) → Agrees c.manager id w' (chronicle s') := by
  rcases asked.ends with ⟨rfl, rfl, rfl⟩ | ⟨rfl, ends⟩
  · exact ⟨by simpa using guard, fun agrees => agrees⟩
  · by_cases here : w.id = id
    · have writes := recorded.updateStatus ends here
      obtain ⟨after, agreement⟩ := guard.updateStatus (recorded.linked s') writes
      exact ⟨after, agreement⟩
    · have drifts := recorded.elsewhere here (.inr ends)
      exact ⟨(guard.drift drifts (recorded.linked s')).snoc drifts.own (by simp [Event.starts]),
        fun agrees => agrees.drift drifts (recorded.linked s')⟩

theorem Guard.stepped {sub : Subroutine σ} {phase : Phase} {answer : Option StepAnswer}
    (recorded : Recorded c.manager c.world id chronicle (rules c.manager))
    (guard : Guard c.manager chronicle life t (chronicle s)) (member : sub ∈ c.manager.subroutines)
    (agrees : Agrees c.manager id w (chronicle s))
    (equipped : phase = .process → ∀ token ∈ sub.finalizers, token ∈ w.finalizers)
    (asked : Run.Asked c.world.cancelled (sub.step phase w) (.stepped sub.name phase w) s answer piece s') :
    Guard c.manager chronicle life (t ++ piece) (chronicle s') ∧ Agrees c.manager id w (chronicle s') := by
  rcases asked.ends with ⟨_, rfl, rfl⟩ | ⟨rfl, ends⟩
  · exact ⟨by simpa using guard, agrees⟩
  · have drifts := recorded.step sub member ends
    have after := agrees.drift drifts (recorded.linked s')
    refine ⟨(guard.drift drifts (recorded.linked s')).snoc drifts.own ?_, after⟩
    intro other among start stored there token owned
    cases phase with
    | finalize => simp [Event.starts] at start
    | process =>
        have name : sub.name = other.name := by simpa [Event.starts] using start
        obtain rfl := c.manager.eq_of_name member among name
        exact (after.same stored there token (mem_tokens member owned)).mp (equipped rfl token owned)

theorem Guard.asked {found : Option (Except Error (Option Workspace))}
    (recorded : Recorded c.manager c.world id chronicle (rules c.manager))
    (guard : Guard c.manager chronicle life t (chronicle s))
    (asked : Run.Asked c.world.cancelled (c.world.get id) (.fetched id) s found piece s') :
    Guard c.manager chronicle life (t ++ piece) (chronicle s') ∧
      ∀ w, found = some (.ok (some w)) → Agrees c.manager id w (chronicle s') := by
  rcases asked.ends with ⟨rfl, rfl, rfl⟩ | ⟨rfl, ends⟩
  · exact ⟨by simpa using guard, by simp⟩
  · obtain ⟨reads, identity⟩ := recorded.get ends
    have drifts := reads.drifts
    obtain ⟨seen, _, late, answered⟩ := reads
    refine ⟨(guard.drift drifts (recorded.linked s')).snoc drifts.own (by simp [Event.starts]), fun w success => ?_⟩
    refine Agrees.drift ⟨identity w success, fun stored there token _ => ?_⟩ late (recorded.linked s')
    have same : some w = some stored := (answered _ success).trans there
    cases same
    exact Iff.rfl

theorem guard_of_course
    (apart : Apart c.manager)
    (statusOnly : c.manager.StepsKeep fun w => (w.metadata, w.spec))
    (recorded : Recorded c.manager c.world id chronicle (rules c.manager))
    (before : Guard c.manager chronicle life [] (chronicle start))
    (course : Course c id now fetched start t stage w s) :
    Guard c.manager chronicle life t (chronicle s) ∧ Position c.manager id t w (chronicle s) stage := by
  -- Step by step: the position says why the next write may take off what it takes off, the guard what the writes that
  -- were made have taken off.
  induction course with
  | start => exact ⟨before, trivial⟩
  | note record _ ih => exact ⟨ih.1.snoc (by simp [Chronicle.own]) (by simp [Event.starts]), ih.2.snoc rfl⟩
  | unread _ asked _ ih => exact ⟨(ih.1.asked recorded asked).1, trivial⟩
  | absent _ asked ih => exact ⟨(ih.1.asked recorded asked).1, trivial⟩
  | skip _ asked _ _ ih => exact ⟨(ih.1.asked recorded asked).1, trivial⟩
  | fetch _ asked _ _ ih =>
      obtain ⟨guard, agrees⟩ := ih.1.asked recorded asked
      exact ⟨guard, (agrees _ rfl).amend _⟩
  | stop _ _ ih => exact ⟨ih.1, trivial⟩
  | pass _ _ _ ih => exact ih
  | enter _ _ _ ih => exact ⟨ih.1, ih.2.amend _⟩
  | condemned _ _ ih => exact ⟨ih.1, ih.2, by simp⟩
  | @equipped _ sub _ _ _ _ _ _ unchanged ih =>
      have same := Workspace.finalizers_register_of_unchanged unchanged
      exact ⟨ih.1, ih.2.alike rfl same, fun _ token owned =>
        (Workspace.mem_finalizers_register _ _).mpr (.inr owned)⟩
  | register _ _ _ ih =>
      refine ⟨ih.1, ih.2.identity, ?_, fun token owned => (Workspace.mem_finalizers_register _ _).mpr (.inr owned)⟩
      intro stored there other among token owned kept lacking
      have held := (ih.2.same stored there token (mem_tokens among owned)).mpr kept
      exact absurd ((Workspace.mem_finalizers_register _ _).mpr (.inl held)) lacking
  | step course asked ih =>
      have member := course.mem_of_agenda List.mem_cons_self
      obtain ⟨guard, agrees⟩ := ih.1.stepped recorded member ih.2.1 ih.2.2 asked
      obtain ⟨rfl, _⟩ := asked.answered
      have same := congrArg Prod.fst (statusOnly.asked member asked)
      exact ⟨guard, (agrees.unmoved same).afterStep⟩
  | drop course asked ih =>
      exact ⟨(ih.1.stepped recorded (course.mem_of_agenda List.mem_cons_self) ih.2.1 ih.2.2 asked).1, trivial⟩
  | keep _ unchanged ih => exact ⟨ih.1, ih.2.1.kept unchanged⟩
  | release course changed ih =>
      have member := course.mem_of_agenda List.mem_cons_self
      exact ⟨ih.1, (id_releaseIfIdle ..).trans ih.2.1.identity, ih.2.1.released apart member changed ih.2.2, trivial⟩
  | written _ asked ih =>
      obtain ⟨guard, agrees⟩ := ih.1.updated recorded ih.2.1 ih.2.2.1 asked
      exact ⟨guard, (agrees _ rfl).next ih.2.2.2⟩
  | unwritten _ asked _ ih =>
      exact ⟨(ih.1.updated recorded ih.2.1 ih.2.2.1 asked).1, spent_refused _ _⟩
  | complete _ ih =>
      refine ⟨ih.1, ?_⟩
      split
      · exact ih.2.amend _
      · exact ih.2
  | fail _ ih => exact ⟨ih.1.snoc (by simp [Chronicle.own]) (by simp [Event.starts]), trivial⟩
  | @report _ error _ _ s _ _ ih =>
      have drifts := recorded.capture error c.tags s
      exact ⟨(ih.1.drift drifts (recorded.linked _)).snoc drifts.own (by simp [Event.starts]),
        position_of_spent ih.2⟩
  | conceal _ _ ih => exact ⟨ih.1, position_of_spent ih.2⟩
  | abort _ ih => exact ⟨ih.1, trivial⟩
  | conclude _ _ ih => exact ⟨ih.1, ih.2.amend _⟩
  | @schedule _ _ _ s _ _ _ drawn ih =>
      obtain ⟨next, _, rfl⟩ := Option.map_eq_some_iff.mp drawn
      have drifts := recorded.draw s
      have agrees := Agrees.drift ih.2 drifts (recorded.linked _)
      refine ⟨ih.1.drift drifts (recorded.linked _), Agrees.amend ?_ _⟩
      exact agrees.unmoved rfl
  | beyond _ _ _ ih => exact ⟨ih.1.drift (recorded.draw _) (recorded.linked _), trivial⟩
  | @unchanged _ verdict _ _ _ _ ih =>
      cases verdict with
      | outcome _ => exact ih
      | failure _ => exact ⟨ih.1, trivial⟩
  | @persist _ verdict _ _ _ _ _ _ _ asked ih =>
      obtain ⟨guard, agrees⟩ := ih.1.statusUpdated recorded asked
      cases verdict with
      | outcome _ => exact ⟨guard, agrees (ih.2.alike rfl rfl)⟩
      | failure _ => exact ⟨guard, trivial⟩
  | @vanish _ verdict _ _ _ _ _ _ _ _ asked _ _ ih =>
      obtain ⟨guard, agrees⟩ := ih.1.statusUpdated recorded asked
      cases verdict with
      | outcome _ => exact ⟨guard, agrees ih.2⟩
      | failure _ => exact ⟨guard, trivial⟩
  | refuse _ _ asked answered _ ih => exact ⟨(ih.1.statusUpdated recorded asked).1, trivial⟩
  | finish _ _ ih => exact ⟨ih.1, trivial⟩
  | unlabel _ _ ih => exact ⟨ih.1, ih.2.identity, ih.2.excused, trivial⟩

end

section

variable {m : Manager σ} {world : World σ} {id : ResourceId} {chronicle : σ → Chronicle} {start s : σ}

theorem guard_of_reconcile (apart : Apart m) (statusOnly : m.StepsKeep fun w => (w.metadata, w.spec))
    (recorded : Recorded m world id chronicle (rules m)) {life : List (Moment σ)}
    (before : Guard m chronicle life [] (chronicle s)) :
    Guard m chronicle life (m.reconcile world id s).trace (chronicle (m.reconcile world id s).state) := by
  obtain ⟨now, fetched, left, course⟩ := m.attempt_course world id s
  have started := before.drift (recorded.correlate s) (recorded.linked _)
  have guard := (guard_of_course apart statusOnly recorded started course).1
  rw [(m.reconcile_attempt world id s).1]
  exact Manager.reconcile_of_attempt (P := (Guard m chronicle life · _)) guard fun _ _ _ earlier =>
    earlier.snoc (by simp [Chronicle.own]) (by simp [Event.starts])

theorem guard_of_rounds (apart : Apart m) (statusOnly : m.StepsKeep fun w => (w.metadata, w.spec))
    (recorded : Recorded m world id chronicle (rules m)) {rans : List (Ran σ (Except Stop Outcome))}
    (rounds : Rounds m world id chronicle (rules m).others start rans s) :
    (∀ ran ∈ rans, Throughout (Earned m chronicle) ran.trace) ∧
      Throughout (Paid m chronicle) (rans.flatMap (·.trace)) ∧
      Guard m chronicle (rans.flatMap (·.trace)) [] (chronicle s) := by
  induction rounds with
  | start => exact ⟨by simp, .nil, .nil, .nil, by simp [owes]⟩
  | meantime _ drifts ih => exact ⟨ih.1, ih.2.1, ih.2.2.drift drifts (recorded.linked _)⟩
  | @reconcile rans s _ ih =>
      have guard := guard_of_reconcile apart statusOnly recorded ih.2.2
      have life : (rans ++ [m.reconcile world id s]).flatMap (·.trace) =
          rans.flatMap (·.trace) ++ (m.reconcile world id s).trace := by simp
      rw [life]
      refine ⟨fun ran member => ?_, ih.2.1.append guard.paid, .nil, .nil, by simpa using guard.owed⟩
      rcases List.mem_append.mp member with earlier | last
      · exact ih.1 ran earlier
      · obtain rfl := List.mem_singleton.mp last
        exact guard.earned

/-- A token comes off the stored resource only in the update right after the clean-up of its owner was done in the same
reconcile. When the resource leaves the store by a write of the manager, every owner of a token that was started has
been cleaned up after since its last start. -/
theorem finalizers_earned (apart : Apart m) (statusOnly : m.StepsKeep fun w => (w.metadata, w.spec))
    (recorded : Recorded m world id chronicle (rules m)) {rans : List (Ran σ (Except Stop Outcome))}
    (rounds : Rounds m world id chronicle (rules m).others start rans s) :
    (∀ ran ∈ rans, Throughout (Earned m chronicle) ran.trace) ∧
      ∀ sub ∈ m.subroutines, sub.finalizers ≠ [] → ∀ past started between removed rest,
        rans.flatMap (·.trace) = past ++ started :: between ++ removed :: rest →
        started.event.starts sub.name = true →
        (∃ d ∈ Chronicle.own (chronicle removed.before) (chronicle removed.after), d.left = none) →
        ∃ moment ∈ between, moment.event.cleans sub.name = true := by
  obtain ⟨earned, paid, _⟩ := guard_of_rounds apart statusOnly recorded rounds
  refine ⟨earned, fun sub member owner past started between removed rest split start leaves => ?_⟩
  obtain ⟨d, written, gone⟩ := leaves
  obtain ⟨token, owned⟩ := List.exists_mem_of_ne_nil _ owner
  by_contra unclean
  have owing : owes sub.name (past ++ started :: between) = true := by
    refine owes_of_started start fun moment among => ?_
    by_contra clean
    exact unclean ⟨moment, among, by simpa using clean⟩
  have still := paid _ removed rest split d written sub member owing token owned
  simp [present, gone] at still

end

section

open Reconciler.Shelf

def drain (w : Workspace) (shelf : Shelf site) : StepAnswer :=
  { workspace := w, result := .ok (if shelf.now.before nextDay then .requeueNow else .done) }

def crew : Manager (Shelf site) where
  operator := "converge"
  controller := "workspaces"
  subroutines := [worker "volume" ["volume"] leave leave, worker "proxy" ["proxy"] leave drain]
  faultless := by decide

def doomed : Shelf site :=
  stocked web [none, none, none, some (.condemn .epoch), none, some (.retarget "shop")] .epoch

def first : Ran (Shelf site) (Except Stop Outcome) :=
  crew.reconcile (Shelf.world site) site doomed

def second : Ran (Shelf site) (Except Stop Outcome) :=
  crew.reconcile (Shelf.world site) site first.state

def third : Ran (Shelf site) (Except Stop Outcome) :=
  crew.reconcile (Shelf.world site) site { second.state with now := nextDay }

def life : List (Moment (Shelf site)) :=
  [first, second, third].flatMap (·.trace)

theorem life_splits :
    ∃ past started between removed rest, life = past ++ started :: between ++ removed :: rest ∧
      started.event.starts "proxy" = true ∧
      ∃ d ∈ Chronicle.own removed.before.chronicle removed.after.chronicle, d.left = none :=
  ⟨_, _, _, _, _, split_at (by decide : 10 < 36) (by decide +kernel), by decide +kernel, by decide +kernel⟩

theorem crew_answers {sub : Subroutine (Shelf site)} (member : sub ∈ crew.subroutines) {phase : Phase} {w : Workspace}
    {s s' : Shelf site} {answer : Option StepAnswer} (ends : (sub.step phase w s).Ends answer s') :
    s' = s ∧ ∀ given, answer = some given → given.workspace = w := by
  simp only [crew, List.mem_cons, List.not_mem_nil, or_false] at member
  rcases member with rfl | rfl
  · obtain ⟨same, rfl | rfl⟩ := answer_of_worker ends <;> exact ⟨same, by rintro _ ⟨⟩; rfl⟩
  · obtain ⟨same, rfl | rfl⟩ := answer_of_worker ends <;> exact ⟨same, by rintro _ ⟨⟩; rfl⟩

theorem crew_recorded : Recorded crew (Shelf.world site) site Shelf.chronicle (rules crew) := by
  have shelved := Shelf.recorded crew fun sub member phase w s answer s' ends => by
    rw [(crew_answers member ends).1]
    exact .refl _ _
  refine shelved.mono ?_ ?_ ?_
  · rintro d ⟨edit, stored, version, found, stays, written⟩
    refine ⟨stored, found, fun left last token _ => ?_⟩
    obtain rfl : _ = left := by simpa [Deed.left, stays, written] using last
    cases edit <;> exact Iff.rfl
  · rintro given answer d ⟨store, stored, found, _, rfl, written, leaves⟩
    refine ⟨by simp, by simp [found], ?_⟩
    by_cases gone : (stored.isBeingDeleted && given.finalizers.isEmpty) = true
    · have none : given.finalizers = [] := by simp_all
      simp [present, Deed.left, leaves.trans gone, none]
    · simp only [present, Deed.left, leaves, gone, written]
      rfl
  · rintro given answer d ⟨store, stored, found, _, rfl, written, stays⟩
    exact ⟨by simp, stored, store.restated stored given, found, by simp [Deed.left, stays, written], rfl⟩

theorem three_rounds :
    Rounds crew (Shelf.world site) site Shelf.chronicle (rules crew).others doomed [first, second, third]
      third.state := by
  have one : Rounds crew (Shelf.world site) site Shelf.chronicle (rules crew).others doomed ([] ++ [first])
      first.state := .reconcile .start
  have waited : Rounds crew (Shelf.world site) site Shelf.chronicle (rules crew).others doomed
      (([] ++ [first]) ++ [second]) { second.state with now := nextDay } := .meantime one.reconcile (.refl _ _)
  exact waited.reconcile

theorem finalizers_earned_three_rounds :
    third.state.stored = none ∧
      (∀ ran ∈ [first, second, third], Throughout (Earned crew Shelf.chronicle) ran.trace) ∧
      ∃ past started between removed rest, life = past ++ started :: between ++ removed :: rest ∧
        started.event.starts "proxy" = true ∧
        (∃ d ∈ Chronicle.own removed.before.chronicle removed.after.chronicle, d.left = none) ∧
        ∃ moment ∈ between, moment.event.cleans "proxy" = true := by
  have statusOnly : crew.StepsKeep fun w => (w.metadata, w.spec) := by
    intro sub member phase w s answer s' ends
    rw [(crew_answers member ends).2 answer rfl]
  obtain ⟨earned, cleaned⟩ := finalizers_earned (by decide) statusOnly crew_recorded three_rounds
  obtain ⟨past, started, between, removed, rest, split, start, leaves⟩ := life_splits
  have done := cleaned (worker "proxy" ["proxy"] leave drain) (by simp [crew]) (by simp [worker]) past started between
    removed rest split start leaves
  exact ⟨by decide +kernel, earned, past, started, between, removed, rest, split, start, leaves, done⟩

end

end FinalizerProtocol

end Reconciler
