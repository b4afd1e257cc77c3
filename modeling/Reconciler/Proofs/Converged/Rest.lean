import Reconciler.Proofs.Chronicle.Shelf
import Reconciler.Proofs.Converged.Course

set_option autoImplicit false

namespace Reconciler

variable {σ : Type}

namespace Converged

-- Everything was done at that time, and every token is in place.
structure Rests (m : Manager σ) (time : Timestamp) (w : Workspace) : Prop where
  live : w.isBeingDeleted = false
  tokens : ∀ sub ∈ m.subroutines, ∀ token ∈ sub.finalizers, token ∈ w.finalizers
  settled : Settled m.subroutines time w.conditions

def retimed (subs : List (Subroutine σ)) (now : Timestamp) (w : Workspace) : Workspace.Status :=
  { w.currentStatus with conditions := restamped now subs w.conditions }

structure Retimed (subs : List (Subroutine σ)) (now : Timestamp) (old new : Workspace) : Prop where
  rest : rest new = rest old
  status : new.currentStatus = retimed subs now old

section

variable {m : Manager σ} {world : World σ} {chronicle : σ → Chronicle} {id : ResourceId} {now time : Timestamp}
variable {s start : σ} {v u : Workspace} {d : Deed} {before l : Chronicle}

theorem Rests.not_astray (rests : Rests m time v) : ¬Astray m.subroutines v := by
  rintro ⟨sub, member, token, mine, missing⟩
  exact missing (rests.tokens sub member token mine)

theorem Rests.outlook (rests : Rests m time v) : outlook m.subroutines now v = retimed m.subroutines now v := by
  simp only [Converged.outlook, retimed, final_of_settled m.names_nodup rests.settled]

theorem Rests.retimed_eq_iff (rests : Rests m time v) :
    retimed m.subroutines now v = v.currentStatus ↔ m.subroutines = [] ∨ now = time := by
  rw [← restamped_eq_self_iff m.names_nodup rests.settled]
  constructor
  · exact fun same => congrArg Workspace.Status.conditions same
  · intro same
    rw [retimed, same]
    rfl

theorem Rests.retimed (rests : Rests m time v) (retimed : Retimed m.subroutines now v u) : Rests m now u := by
  have same := retimed.rest
  simp only [rest, Prod.mk.injEq] at same
  refine ⟨same.2.2.2.trans rests.live, fun sub member token mine => ?_, ?_⟩
  · rw [same.2.2.1]
    exact rests.tokens sub member token mine
  · rw [Workspace.conditions, retimed.status, ← rests.outlook]
    exact settled_final now m.names_nodup v.conditions

theorem Rests.sparing (rests : Rests m time v) (there : before.stored = some v) (linked : l.Linked)
    (sparing : Sparing m.subroutines now before v l) :
    l = before ∨ ∃ d left, l = before ++ [d] ∧ d.left = some left ∧ Retimed m.subroutines now v left ∧
      m.subroutines ≠ [] ∧ now ≠ time := by
  obtain ⟨more, rfl, each⟩ := sparing.resolve_left rests.not_astray
  rcases more with _ | ⟨d, rest⟩
  · exact .inl (List.append_nil _)
  · obtain ⟨found, left, was, becomes, kept, status, differs⟩ := each d List.mem_cons_self
    rw [linked.found, there] at was
    obtain rfl := Option.some.inj was
    have another : Retimed m.subroutines now v left := ⟨kept, status.trans rests.outlook⟩
    rw [another.status] at differs
    rcases rest with _ | ⟨e, rest⟩
    · have moved := not_or.mp (mt rests.retimed_eq_iff.mpr differs)
      exact .inr ⟨d, left, rfl, becomes, another, moved.1, moved.2⟩
    · -- What was brought at that time is not brought again.
      obtain ⟨found, again, was, _, _, shown, changes⟩ := each e (by simp)
      rw [show before ++ d :: e :: rest = (before ++ [d]) ++ e :: rest by simp] at linked
      rw [linked.found, Chronicle.stored_snoc, becomes] at was
      obtain rfl := Option.some.inj was
      have settled := rests.retimed another
      exact absurd (shown.trans (settled.outlook.trans (settled.retimed_eq_iff.mpr (.inr rfl)))) changes

theorem stored_of_finds {c : Cycle σ} {now : Timestamp} {fetched left : Workspace} {stage : Stage σ}
    {t : List (Moment σ)} {read : Moment σ} (recorded : Recorded c.manager c.world id chronicle rules)
    (course : Course c id now fetched start t stage left s) (found : Finds id t read v) :
    (chronicle start).stored = some v := by
  obtain ⟨drifts, seen, early, _, answered⟩ := (course.grown recorded).1.read read found.1 _ found.2
  have there := answered _ rfl
  rw [nobody early, nobody drifts] at there
  exact there.symm

theorem finds_of_due {c : Cycle σ} {now : Timestamp} {fetched left : Workspace} {stage : Stage σ}
    {t : List (Moment σ)} (recorded : Recorded c.manager c.world id chronicle rules)
    (course : Course c id now fetched start t stage left s) (there : (chronicle start).stored = some v)
    (due : Due c id now fetched t) : ∃ read, Finds id t read v ∧ fetched = v ∧ now = c.world.now read.after := by
  obtain ⟨⟨read, found, reading, _⟩, _⟩ := due
  have stored := stored_of_finds recorded course found
  rw [there] at stored
  obtain rfl := Option.some.inj stored
  exact ⟨read, found, rfl, reading⟩

theorem sparing_of_calm {fetched left : Workspace} {value : Except Stop Finished}
    (there : before.stored = some v) (calm : Calm m id now before fetched left l (.ended value)) :
    Sparing m.subroutines now before fetched l := by
  rcases value with stop | _ | skipped | reached
  · exact calm
  · exact absurd (there.symm.trans calm) (by simp)
  · exact calm.elim
  · exact calm.sparing

theorem reconciled_of_calm {fetched left : Workspace} {value : Except Stop Finished} {outcome : Outcome}
    (there : before.stored = some v) (calm : Calm m id now before fetched left l (.ended value))
    (ended : value.map Finished.outcome = .ok outcome) :
    (∃ reached, value = .ok (.reconciled reached)) ∧
      Holds m.subroutines now before fetched m.subroutines (outlook m.subroutines now fetched) l := by
  rcases value with stop | _ | skipped | reached
  · simp [Except.map] at ended
  · exact absurd (there.symm.trans calm) (by simp)
  · exact calm.elim
  · exact ⟨⟨reached, rfl⟩, calm⟩

structure Untroubled (m : Manager σ) (world : World σ) (id : ResourceId) (chronicle : σ → Chronicle) (s : σ)
    (time : Timestamp) (v : Workspace) : Prop where
  writes : ∀ moment ∈ (m.reconcile world id s).trace, moment.event.isWrite = true →
    ∃ read given answer, Finds id (m.reconcile world id s).trace read v ∧
      m.subroutines ≠ [] ∧ world.now read.after ≠ time ∧ moment.event = .statusUpdated given answer ∧
      given.currentStatus = retimed m.subroutines (world.now read.after) v
  deeds : chronicle (m.reconcile world id s).state = chronicle s ∨
    ∃ read d left, Finds id (m.reconcile world id s).trace read v ∧
      m.subroutines ≠ [] ∧ world.now read.after ≠ time ∧
      chronicle (m.reconcile world id s).state = chronicle s ++ [d] ∧ d.left = some left ∧
      Retimed m.subroutines (world.now read.after) v left
  ended : ∀ outcome, (m.reconcile world id s).value = .ok outcome →
    ∃ read left, Finds id (m.reconcile world id s).trace read v ∧
      (chronicle (m.reconcile world id s).state).stored = some left ∧
      Retimed m.subroutines (world.now read.after) v left

section

variable (managed : m.conditions = true) (unspread : m.spread = false) (diligent : Diligent m)
variable (recorded : Recorded m world id chronicle rules)

include managed unspread diligent recorded

theorem attempt_calm (there : (chronicle s).stored = some v) (live : v.isBeingDeleted = false) :
    ∃ now fetched left,
      Course (m.cycle world id (world.correlate s).1) id now fetched (world.correlate s).2 (m.attempt world id s).trace
        (.ended (m.attempt world id s).value) left (m.attempt world id s).state ∧
      Throughout (fun _ moment => Modest m now (chronicle s) fetched moment.event) (m.attempt world id s).trace ∧
      Calm m id now (chronicle s) fetched left (chronicle (m.attempt world id s).state)
        (.ended (m.attempt world id s).value) := by
  obtain ⟨now, fetched, left, course⟩ := m.attempt_course world id s
  have same : chronicle (world.correlate s).2 = chronicle s := nobody (recorded.correlate s)
  have still : ∀ w, (chronicle (world.correlate s).2).stored = some w → w.isBeingDeleted = false := by
    intro w stored
    rw [same, there] at stored
    exact Option.some.inj stored ▸ live
  have modest := modest_of_course managed unspread diligent recorded still course
  have calm := calm_of_course managed unspread diligent recorded still course
  rw [same] at modest calm
  exact ⟨now, fetched, left, course, modest, calm⟩

theorem rests_of_reconcile (there : (chronicle s).stored = some v) (live : v.isBeingDeleted = false) {outcome : Outcome}
    (ended : (m.reconcile world id s).value = .ok outcome) :
    ∃ u time, (chronicle (m.reconcile world id s).state).stored = some u ∧ Rests m time u := by
  obtain ⟨now, fetched, left, course, _, calm⟩ := attempt_calm managed unspread diligent recorded there live
  rw [(m.reconcile_attempt world id s).1]
  rw [m.value_reconcile] at ended
  obtain ⟨u, stored, still, tokens, status⟩ := (reconciled_of_calm there calm ended).2.stored
  refine ⟨u, now, stored, still, fun sub member token mine => ?_, ?_⟩
  · rw [tokens]
    exact mem_registered.mpr (.inr ⟨sub, member, mine⟩)
  · rw [Workspace.conditions, status]
    exact settled_final now m.names_nodup fetched.conditions

theorem Rests.untroubled (rests : Rests m time v) (there : (chronicle s).stored = some v) :
    Untroubled m world id chronicle s time v := by
  obtain ⟨now, fetched, left, course, modest, calm⟩ := attempt_calm managed unspread diligent recorded there rests.live
  have same : chronicle (world.correlate s).2 = chronicle s := nobody (recorded.correlate s)
  have sparing := sparing_of_calm there calm
  -- A reconcile that goes on has found what is at rest.
  have goes := finds_of_due recorded course (same ▸ there)
  obtain ⟨state, _⟩ := m.reconcile_attempt world id s
  constructor
  · intro moment member write
    have call : moment.event.isCall = true := by
      by_contra quiet
      simp [isWrite_of_not_isCall (by simpa using quiet)] at write
    have member := mem_attempt_of_isCall member call
    rcases course.due_or_idle recorded with due | ⟨quiet, _⟩
    · obtain ⟨read, found, rfl, rfl⟩ := goes due
      obtain ⟨past, rest, split⟩ := List.append_of_mem member
      obtain ⟨_, astray | ⟨given, answer, event, status, differs⟩⟩ := modest past moment rest split write
      · exact absurd astray rests.not_astray
      · rw [rests.outlook] at status differs
        have moved := not_or.mp (mt rests.retimed_eq_iff.mpr differs)
        exact ⟨read, given, answer, finds_reconcile.mpr found, moved.1, moved.2, event, status⟩
    · simp [quiet moment member] at write
  · rw [state]
    rcases course.due_or_idle recorded with due | ⟨_, drifts⟩
    · obtain ⟨read, found, rfl, rfl⟩ := goes due
      rcases rests.sparing there (recorded.linked _) sparing with idle | ⟨d, left, whole, becomes, another, some, moved⟩
      · exact .inl idle
      · exact .inr ⟨read, d, left, finds_reconcile.mpr found, some, moved, whole, becomes, another⟩
    · exact .inl ((nobody drifts).trans same)
  · intro outcome ended
    rw [m.value_reconcile] at ended
    rw [state]
    obtain ⟨⟨reached, value⟩, holds⟩ := reconciled_of_calm there calm ended
    have outset := course.outset
    rw [value] at outset
    obtain ⟨read, found, rfl, rfl⟩ := goes outset
    obtain ⟨u, stored, _, _, status⟩ := holds.stored
    rcases rests.sparing there (recorded.linked _) sparing with idle | ⟨d, left, whole, becomes, another, _⟩
    · -- Without a deed what is stored is what was found, and so it was as the ledger would have it already.
      rw [idle, there] at stored
      obtain rfl := Option.some.inj stored
      exact ⟨read, fetched, finds_reconcile.mpr found, idle ▸ there, rfl, status.trans rests.outlook⟩
    · exact ⟨read, left, finds_reconcile.mpr found, by rw [whole, Chronicle.stored_snoc, becomes], another⟩

theorem Rests.reconcile (rests : Rests m time v) (there : (chronicle s).stored = some v) :
    ∃ u since, (chronicle (m.reconcile world id s).state).stored = some u ∧ Rests m since u := by
  rcases (rests.untroubled managed unspread diligent recorded there).deeds with
    same | ⟨read, d, left, _, _, _, whole, becomes, another⟩
  · exact ⟨v, time, same ▸ there, rests⟩
  · exact ⟨left, _, by rw [whole, Chronicle.stored_snoc, becomes], rests.retimed another⟩

/-- After a reconcile of a live resource has come to an end without an error, and as long as nobody else is at it, the
resource is left alone by every reconcile that comes after, but for one thing: if the clock does not show the time any
more that the conditions of the subroutines have, they get the new time. -/
theorem nothing_but_the_time (there : (chronicle start).stored = some v) (live : v.isBeingDeleted = false)
    {outcome : Outcome} (ended : (m.reconcile world id start).value = .ok outcome)
    {rans : List (Ran σ (Except Stop Outcome))}
    (rounds : Rounds m world id chronicle rules.others (m.reconcile world id start).state rans s) :
    ∃ u time, (chronicle s).stored = some u ∧ Rests m time u ∧ Untroubled m world id chronicle s time u := by
  -- Round by round, the resource has been at rest since some time, and the clock may have moved on since.
  have rests : ∃ u time, (chronicle s).stored = some u ∧ Rests m time u := by
    induction rounds with
    | start => exact rests_of_reconcile managed unspread diligent recorded there live ended
    | meantime _ drifts ih =>
        rw [nobody drifts]
        exact ih
    | reconcile _ ih =>
        obtain ⟨u, time, stored, rests⟩ := ih
        exact rests.reconcile managed unspread diligent recorded stored
  obtain ⟨u, time, stored, rests⟩ := rests
  exact ⟨u, time, stored, rests, rests.untroubled managed unspread diligent recorded stored⟩

end

end

section

open Reconciler.Shelf

def hands : Manager (Shelf site) where
  operator := "converge"
  controller := "workspaces"
  subroutines := [worker "dns" ["dns"] leave leave]
  conditions := true
  faultless := by decide

theorem diligent_hands : Diligent hands := by
  intro sub member w s answer s' ends
  obtain rfl : sub = _ := by simpa [hands] using member
  obtain ⟨answered, _⟩ := Call.ends_done ends
  obtain rfl := Option.some.inj answered
  exact ⟨rfl, .done, rfl, rfl⟩

theorem recorded_hands : Recorded hands (desertedWorld site) site Shelf.chronicle rules := by
  have idle : ∀ sub ∈ hands.subroutines, ∀ phase w s answer s', (sub.step phase w s).Ends answer s' → s' = s := by
    intro sub member phase w s answer s' ends
    obtain rfl : sub = _ := by simpa [hands] using member
    exact (answer_of_worker ends).1
  refine (recorded_deserted hands idle).mono (fun _ nobody => nobody) ?_ ?_
  · rintro given answer d ⟨store, stored, found, _, _, written, leaves⟩
    refine ⟨stored, found, fun left => ?_, fun left becomes => ?_⟩
    · by_contra live
      simp [Deed.left, leaves, live, written] at left
    · obtain rfl := Option.some.inj ((Deed.written_of_left becomes).symm.trans written)
      exact ⟨rfl, rfl, rfl⟩
  · rintro given answer d ⟨store, stored, found, _, _, written, leaves⟩
    refine ⟨stored, store.restated stored given, found, by simp [Deed.left, leaves, written], rfl, ?_⟩
    exact ⟨.inl rfl, .inl rfl, .inl rfl, .inl rfl⟩

def firstDay : Ran (Shelf site) (Except Stop Outcome) :=
  hands.reconcile (desertedWorld site) site (stocked web [] .epoch)

def secondDay : Ran (Shelf site) (Except Stop Outcome) :=
  hands.reconcile (desertedWorld site) site { firstDay.state with now := nextDay }

theorem nothing_but_the_time_next_day :
    firstDay.value = .ok .done ∧
      (∃ u time, firstDay.state.chronicle.stored = some u ∧ Rests hands time u ∧
        Untroubled hands (desertedWorld site) site Shelf.chronicle { firstDay.state with now := nextDay } time u) ∧
      ∃ moment ∈ secondDay.trace, moment.event.isWrite = true := by
  have ended : firstDay.value = .ok .done := by decide +kernel
  have rounds : Rounds hands (desertedWorld site) site Shelf.chronicle rules.others firstDay.state []
      { firstDay.state with now := nextDay } := .meantime .start (.refl _ _)
  have there : (stocked web [] .epoch).chronicle.stored = some (web.setResourceVersion (some "1")) := by decide
  have writes : secondDay.trace.any (·.event.isWrite) = true := by decide +kernel
  exact ⟨ended, nothing_but_the_time rfl rfl diligent_hands recorded_hands there (by decide) ended rounds,
    List.any_eq_true.mp writes⟩

end

end Converged

end Reconciler
