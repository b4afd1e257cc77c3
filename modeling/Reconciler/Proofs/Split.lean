import Mathlib.Data.List.Induction

set_option autoImplicit false

namespace Reconciler

variable {α : Type} {l past rest : List α} {a b : α} {i j : Nat}

theorem split_snoc (split : l ++ [b] = past ++ a :: rest) :
    (past = l ∧ a = b) ∨ ∃ front, l = past ++ a :: front := by
  rcases rest.eq_nil_or_concat with rfl | ⟨front, last, rfl⟩
  · obtain ⟨rfl, same⟩ := List.append_inj' split rfl
    cases same
    exact .inl ⟨rfl, rfl⟩
  · have shorter : l ++ [b] = (past ++ a :: front) ++ [last] := by simpa using split
    exact .inr ⟨front, (List.append_inj' shorter rfl).1⟩

theorem split_append {l' : List α} (split : l ++ l' = past ++ a :: rest) :
    (∃ back, l = past ++ a :: back) ∨ ∃ front, past = l ++ front ∧ l' = front ++ a :: rest := by
  rcases List.append_eq_append_iff.mp split with ⟨front, there, later⟩ | ⟨middle, here, later⟩
  · exact .inr ⟨front, there, later⟩
  · rcases middle with _ | ⟨first, back⟩
    · exact .inr ⟨[], by simpa using here.symm, by simpa using later.symm⟩
    · obtain ⟨rfl, _⟩ := List.cons.inj later
      exact .inl ⟨back, here⟩

theorem split_flatMap {β : Type} {f : β → List α} {pieces : List β} (split : pieces.flatMap f = past ++ a :: rest) :
    ∃ before piece after front back, pieces = before ++ piece :: after ∧ f piece = front ++ a :: back ∧
      past = before.flatMap f ++ front := by
  induction pieces generalizing past with
  | nil => simp at split
  | cons piece pieces ih =>
      rcases split_append split with ⟨back, here⟩ | ⟨front, rfl, later⟩
      · exact ⟨[], piece, pieces, past, back, rfl, here, rfl⟩
      · obtain ⟨before, other, after, front, back, rfl, there, rfl⟩ := ih later
        exact ⟨piece :: before, other, after, front, back, rfl, there, by simp⟩

theorem split_filter {p : α → Bool} {front back : List α} (split : l.filter p = front ++ a :: back) :
    ∃ past rest, l = past ++ a :: rest ∧ past.filter p = front ∧ rest.filter p = back := by
  obtain ⟨before, after, rfl, rfl, filtered⟩ := List.filter_eq_append_iff.mp split
  obtain ⟨dropped, rest, rfl, unfit, _, rfl⟩ := List.filter_eq_cons_iff.mp filtered
  refine ⟨before ++ dropped, rest, by simp, ?_, rfl⟩
  rw [List.filter_append, List.filter_eq_nil_iff.mpr unfit, List.append_nil]

theorem split_at (before : i < j) (bound : j < l.length) :
    l = l.take i ++ l[i] :: (l.take j).drop (i + 1) ++ l[j] :: l.drop (j + 1) := by
  have inner : (l.take j).drop i = l[i] :: (l.take j).drop (i + 1) := by
    rw [List.drop_eq_getElem_cons (by simp; omega)]
    simp
  have front : l.take j = l.take i ++ (l.take j).drop i := by
    have halves := List.take_append_drop i (l.take j)
    rw [List.take_take, Nat.min_eq_left (by omega)] at halves
    exact halves.symm
  calc
    l = l.take j ++ l.drop j := (List.take_append_drop j l).symm
    _ = (l.take i ++ (l.take j).drop i) ++ l.drop j := by rw [← front]
    _ = _ := by rw [inner, List.drop_eq_getElem_cons bound]

end Reconciler
