import Mathlib.Order.Lattice.Nat
import Mathlib.Order.WithBot
import Reconciler.Proofs.Requeue

set_option autoImplicit false

namespace Reconciler

-- The time until the next reconcile, without end if none is asked for.
def Duration.wait (d : Duration) : WithTop Nat :=
  if d.isZero then ⊤ else .some d.nanos

def Action.wait : Action → WithTop Nat
  | .awaitChange => ⊤
  | .requeue after => .some after.nanos

namespace Merging

def mergeAll (outcomes : List Outcome) : Outcome :=
  outcomes.foldl Outcome.merge .done

section

variable {a b c o : Outcome} {outcomes outcomes' : List Outcome}

theorem wait_injective {d e : Duration} (same : d.wait = e.wait) : d = e := by
  obtain ⟨d⟩ := d
  obtain ⟨e⟩ := e
  by_cases none : d = 0 <;> by_cases other : e = 0 <;> simp_all [Duration.wait, Duration.isZero]

theorem wait_merge (a b : Outcome) : (a.merge b).after.wait = min a.after.wait b.after.wait := by
  obtain ⟨_, ⟨d⟩⟩ := a
  obtain ⟨_, ⟨e⟩⟩ := b
  by_cases none : d = 0
  · by_cases other : e = 0 <;> simp [Outcome.merge, Duration.wait, Duration.isZero, none, other]
  · by_cases other : e = 0
    · simp [Outcome.merge, Duration.wait, Duration.isZero, none, other]
    · by_cases less : e < d
      · have shorter : (⟨e⟩ : Duration) < ⟨d⟩ := less
        simp [Outcome.merge, Duration.wait, Duration.isZero, none, other, shorter, Nat.le_of_lt less]
      · have longer : ¬(⟨e⟩ : Duration) < ⟨d⟩ := less
        simp [Outcome.merge, Duration.wait, Duration.isZero, none, other, longer, Nat.le_of_not_lt less]

theorem requeue_merge (a b : Outcome) : (a.merge b).requeue = (a.requeue || b.requeue) :=
  rfl

theorem eq_of_wait (requeue : a.requeue = b.requeue) (wait : a.after.wait = b.after.wait) : a = b := by
  have after := wait_injective wait
  cases a
  cases b
  simp_all

theorem merge_assoc (a b c : Outcome) : (a.merge b).merge c = a.merge (b.merge c) := by
  refine eq_of_wait ?_ ?_
  · simp only [requeue_merge, Bool.or_assoc]
  · simp only [wait_merge, min_assoc]

theorem merge_comm (a b : Outcome) : a.merge b = b.merge a := by
  refine eq_of_wait ?_ ?_
  · simp only [requeue_merge, Bool.or_comm]
  · simp only [wait_merge, min_comm]

theorem merge_self (a : Outcome) : a.merge a = a := by
  refine eq_of_wait ?_ ?_
  · simp only [requeue_merge, Bool.or_self]
  · simp only [wait_merge, min_self]

theorem merge_done (a : Outcome) : a.merge .done = a := by
  refine eq_of_wait ?_ ?_
  · simp [requeue_merge, Outcome.done]
  · have endless : Outcome.done.after.wait = ⊤ := rfl
    rw [wait_merge, endless, min_eq_left le_top]

theorem mergeAll_perm (perm : outcomes.Perm outcomes') : mergeAll outcomes = mergeAll outcomes' := by
  refine perm.foldl_eq' (fun a _ b _ merged => ?_) _
  rw [merge_assoc, merge_comm a b, merge_assoc]

theorem mergeAll_insert (front : List Outcome) (o : Outcome) (back : List Outcome) :
    mergeAll (front ++ o :: back) = (mergeAll (front ++ back)).merge o := by
  have last : (front ++ o :: back).Perm (front ++ back ++ [o]) :=
    List.perm_middle.trans (List.perm_append_singleton o _).symm
  rw [mergeAll_perm last, mergeAll, List.foldl_concat]
  rfl

theorem wait_action (o : Outcome) : o.action.wait = if o.requeue then ⊥ else o.after.wait := by
  obtain ⟨requeue, d⟩ := o
  cases requeue
  · by_cases some : d.isZero = true <;> simp [Outcome.action, Action.wait, Duration.wait, some]
  · rfl

theorem wait_action_merge (a b : Outcome) : (a.merge b).action.wait = min a.action.wait b.action.wait := by
  simp only [wait_action, requeue_merge, wait_merge]
  cases a.requeue <;> cases b.requeue <;> simp

end

/-- Of any outcomes the merged one asks to run at once if one of them does, and for the shortest delay that any of them
asks for, and it has nothing left to do if that is true of all. Their order, their grouping and their number do not
matter, and a further one never makes the controller come back later. -/
theorem merged_in_any_order :
    (∀ outcomes : List Outcome,
      ((mergeAll outcomes).requeue = true ↔ ∃ o ∈ outcomes, o.requeue = true) ∧
        Requeue.Delays outcomes (mergeAll outcomes).after ∧
        ((mergeAll outcomes).isDone = true ↔ ∀ o ∈ outcomes, o.isDone = true)) ∧
      (∀ a b c : Outcome, (a.merge b).merge c = a.merge (b.merge c)) ∧
      (∀ a b : Outcome, a.merge b = b.merge a) ∧
      (∀ a : Outcome, a.merge a = a) ∧
      (∀ a : Outcome, Outcome.done.merge a = a ∧ a.merge .done = a) ∧
      (∀ outcomes outcomes' : List Outcome, outcomes.Perm outcomes' → mergeAll outcomes = mergeAll outcomes') ∧
      ∀ (front : List Outcome) (o : Outcome) (back : List Outcome),
        (mergeAll (front ++ o :: back)).action.wait ≤ (mergeAll (front ++ back)).action.wait := by
  refine ⟨fun outcomes => ⟨?_, Requeue.delays_foldl outcomes, ?_⟩, merge_assoc, merge_comm, merge_self, fun a => ?_,
    fun _ _ => mergeAll_perm, fun front o back => ?_⟩
  · rw [mergeAll, Requeue.requeue_foldl, List.any_eq_true]
  · rw [mergeAll, Requeue.isDone_foldl, List.all_eq_true]
  · exact ⟨(merge_comm _ _).trans (merge_done a), merge_done a⟩
  · rw [mergeAll_insert, wait_action_merge]
    exact min_le_left ..

theorem merged_in_any_order_backwards :
    mergeAll [.requeueAfter (.ofSeconds 30), .done, .requeueAfter (.ofSeconds 10)] =
      mergeAll [.requeueAfter (.ofSeconds 10), .done, .requeueAfter (.ofSeconds 30)] := by
  obtain ⟨-, -, -, -, -, reordered, -⟩ := merged_in_any_order
  exact reordered _ _ (by decide)

end Merging

end Reconciler
