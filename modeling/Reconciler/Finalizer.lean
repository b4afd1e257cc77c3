import Reconciler.Error.Basic
import Reconciler.Outcome

set_option autoImplicit false

namespace Reconciler.Finalizer

abbrev Token := String

def isRegistered (tokens present : List Token) : Bool :=
  tokens.any fun t => present.contains t

def register : (tokens present : List Token) → List Token × Bool
  | [], present => (present, false)
  | token :: tokens, present =>
      -- A token that is declared twice is found the second time.
      if present.contains token then register tokens present
      else ((register tokens (present ++ [token])).1, true)

def releaseIfIdle (tokens present : List Token) (result : Except OperatorError Outcome) : List Token × Bool :=
  match result with
  | .ok outcome =>
      if outcome.isDone then
        let kept := present.filter fun f => !tokens.contains f
        (kept, kept.length ≠ present.length)
      else (present, false)
  | .error _ => (present, false)

@[simp] theorem register_nil (present : List Token) : register [] present = (present, false) := rfl

@[simp] theorem isRegistered_nil (present : List Token) : isRegistered [] present = false := rfl

theorem mem_register {token : Token} (tokens present : List Token) :
    token ∈ (register tokens present).1 ↔ token ∈ present ∨ token ∈ tokens := by
  induction tokens generalizing present with
  | nil => simp
  | cons first rest ih =>
      by_cases there : first ∈ present
      · have absorbed : token = first → token ∈ present := fun same => same ▸ there
        simp only [register, List.contains_eq_mem, there, decide_true, ↓reduceIte, ih, List.mem_cons]
        grind
      · simp [register, there, ih, or_assoc]

theorem register_of_unchanged {tokens present : List Token} (h : (register tokens present).2 = false) :
    (register tokens present).1 = present := by
  induction tokens generalizing present with
  | nil => rfl
  | cons first rest ih =>
      by_cases there : first ∈ present
      · simp only [register, List.contains_eq_mem, there, decide_true, ↓reduceIte] at h ⊢
        exact ih h
      · simp [register, there] at h

theorem exists_of_changed {tokens present : List Token} (h : (register tokens present).2 = true) :
    ∃ token ∈ tokens, token ∉ present := by
  induction tokens generalizing present with
  | nil => simp [register] at h
  | cons first rest ih =>
      by_cases there : first ∈ present
      · simp only [register, List.contains_eq_mem, there, decide_true, ↓reduceIte] at h
        obtain ⟨token, later, missing⟩ := ih h
        exact ⟨token, List.mem_cons_of_mem _ later, missing⟩
      · exact ⟨first, List.mem_cons_self, there⟩

theorem releaseIfIdle_of_changed {tokens present : List Token} {result : Except OperatorError Outcome}
    (h : (releaseIfIdle tokens present result).2 = true) :
    ∃ outcome, result = .ok outcome ∧ outcome.isDone = true ∧
      (releaseIfIdle tokens present result).1 = present.filter fun f => !tokens.contains f := by
  rcases result with error | outcome
  · simp [releaseIfIdle] at h
  · by_cases done : outcome.isDone = true
    · exact ⟨outcome, rfl, done, by simp [releaseIfIdle, done]⟩
    · simp [releaseIfIdle, done] at h

theorem releaseIfIdle_of_unchanged {tokens present : List Token} {result : Except OperatorError Outcome}
    (h : (releaseIfIdle tokens present result).2 = false) : (releaseIfIdle tokens present result).1 = present := by
  rcases result with error | outcome
  · rfl
  · by_cases done : outcome.isDone = true
    · simp only [releaseIfIdle, done, ↓reduceIte, ne_eq, decide_not, Bool.not_eq_false', decide_eq_true_eq] at h ⊢
      exact List.filter_eq_self.mpr (List.length_filter_eq_length_iff.mp h)
    · simp [releaseIfIdle, done]

end Reconciler.Finalizer
