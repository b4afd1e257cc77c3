import Mathlib.Data.List.Basic
import Reconciler.Subroutine

set_option autoImplicit false

namespace Reconciler

namespace Finalizer

variable {tokens present : List Token} {token : Token} {result : Except OperatorError Outcome}

def missing (tokens present : List Token) : List Token :=
  (tokens.filter fun token => !present.contains token).eraseDups

theorem mem_missing : token ∈ missing tokens present ↔ token ∈ tokens ∧ token ∉ present := by
  simp [missing]

theorem missing_cons_of_mem (there : token ∈ present) : missing (token :: tokens) present = missing tokens present := by
  simp [missing, there]

theorem missing_cons_of_not_mem (absent : token ∉ present) :
    missing (token :: tokens) present = token :: missing tokens (present ++ [token]) := by
  have rest : (tokens.filter fun other => !(present ++ [token]).contains other) =
      (tokens.filter fun other => !present.contains other).filter (!· == token) := by
    rw [List.filter_filter]
    refine List.filter_congr fun other _ => ?_
    by_cases same : other = token <;> simp [same]
  rw [missing, missing, rest, List.filter_cons_of_pos (by simpa using absent), List.eraseDups_cons]

theorem register_eq (tokens present : List Token) :
    (register tokens present).1 = present ++ missing tokens present := by
  induction tokens generalizing present with
  | nil => simp [missing]
  | cons first rest ih =>
      by_cases there : first ∈ present
      · simp [register, there, ih, missing_cons_of_mem]
      · simp [register, there, ih, missing_cons_of_not_mem]

theorem changed_register_iff : (register tokens present).2 = true ↔ ∃ token ∈ tokens, token ∉ present := by
  refine ⟨exists_of_changed, fun ⟨token, declared, absent⟩ => ?_⟩
  by_contra unchanged
  have same := register_of_unchanged (Bool.eq_false_iff.mpr unchanged)
  exact absent (same ▸ (mem_register tokens present).mpr (.inr declared))

theorem missing_append (a b present : List Token) :
    missing (a ++ b) present = missing a present ++ missing b (present ++ missing a present) := by
  induction a generalizing present with
  | nil => simp [missing]
  | cons first rest ih =>
      by_cases there : first ∈ present
      · rw [List.cons_append, missing_cons_of_mem there, missing_cons_of_mem there, ih]
      · rw [List.cons_append, missing_cons_of_not_mem there, missing_cons_of_not_mem there, ih]
        simp

theorem pairwise_missing (tokens present : List Token) :
    (missing tokens present).Pairwise fun a b => tokens.idxOf a < tokens.idxOf b := by
  induction tokens generalizing present with
  | nil => simp [missing]
  | cons first rest ih =>
      -- What is missing from the rest is never the first token, so that it is found one place later.
      have later {known : List Token} (there : first ∈ known) :
          (missing rest known).Pairwise fun a b => (first :: rest).idxOf a < (first :: rest).idxOf b := by
        refine (ih known).imp_of_mem fun {a b} member member' less => ?_
        have other : first ≠ a := fun same => (mem_missing.mp member).2 (same ▸ there)
        have other' : first ≠ b := fun same => (mem_missing.mp member').2 (same ▸ there)
        rw [List.idxOf_cons_ne _ other, List.idxOf_cons_ne _ other']
        exact Nat.succ_lt_succ less
      by_cases there : first ∈ present
      · rw [missing_cons_of_mem there]
        exact later there
      · rw [missing_cons_of_not_mem there]
        refine List.pairwise_cons.mpr ⟨fun b member => ?_, later (by simp)⟩
        have other : first ≠ b := fun same => (mem_missing.mp member).2 (by simp [same])
        rw [List.idxOf_cons_self, List.idxOf_cons_ne _ other]
        exact Nat.succ_pos _

theorem nodup_missing (tokens present : List Token) : (missing tokens present).Nodup := by
  refine (pairwise_missing tokens present).imp fun {a b} less same => ?_
  subst same
  exact Nat.lt_irrefl _ less

theorem missing_eq_nil_iff : missing tokens present = [] ↔ ∀ token ∈ tokens, token ∈ present := by
  simp [List.eq_nil_iff_forall_not_mem, mem_missing]

theorem register_eq_self_iff : (register tokens present).1 = present ↔ ∀ token ∈ tokens, token ∈ present := by
  rw [register_eq, List.append_right_eq_self, missing_eq_nil_iff]

theorem changed_register (tokens present : List Token) :
    (register tokens present).2 = true ↔ (register tokens present).1 ≠ present := by
  rw [changed_register_iff, Ne, register_eq_self_iff]
  simp

theorem register_again (tokens present : List Token) :
    register tokens (register tokens present).1 = ((register tokens present).1, false) := by
  have same : (register tokens (register tokens present).1).1 = (register tokens present).1 :=
    register_eq_self_iff.mpr fun token declared => (mem_register tokens present).mpr (.inr declared)
  exact Prod.ext same (Bool.eq_false_iff.mpr fun changed => (changed_register ..).mp changed same)

theorem isRegistered_iff : isRegistered tokens present = true ↔ ∃ token ∈ tokens, token ∈ present := by
  simp [isRegistered]

def Idle (result : Except OperatorError Outcome) : Prop :=
  ∃ outcome, result = .ok outcome ∧ outcome.isDone = true

theorem releaseIfIdle_of_idle (tokens present : List Token) (idle : Idle result) :
    (releaseIfIdle tokens present result).1 = present.filter (· ∉ tokens) := by
  obtain ⟨outcome, rfl, done⟩ := idle
  simp [releaseIfIdle, done]

theorem changed_releaseIfIdle (tokens present : List Token) (idle : Idle result) :
    (releaseIfIdle tokens present result).2 = true ↔ (releaseIfIdle tokens present result).1 ≠ present := by
  obtain ⟨outcome, rfl, done⟩ := idle
  simp only [releaseIfIdle, done, ↓reduceIte, decide_eq_true_eq, ne_eq, List.filter_eq_self,
    List.length_filter_eq_length_iff]

theorem filter_eq_self_iff : present.filter (· ∉ tokens) = present ↔ ∀ token ∈ tokens, token ∉ present := by
  simp only [List.filter_eq_self, decide_eq_true_eq]
  exact ⟨fun all token mine there => all token there mine, fun none token there mine => none token mine there⟩

theorem filter_register (tokens present : List Token) :
    (register tokens present).1.filter (· ∉ tokens) = present.filter (· ∉ tokens) := by
  have added : (missing tokens present).filter (· ∉ tokens) = [] :=
    List.filter_eq_nil_iff.mpr fun token lacking => by simp [(mem_missing.mp lacking).1]
  rw [register_eq, List.filter_append, added, List.append_nil]

-- What was missing comes after what was there, each token once and in the order in which they are declared first, and
-- then nothing is missing.
structure Appends (tokens : List Token) (before : Workspace) (answer : Workspace × Bool) : Prop where
  added : ∃ added, answer.1.finalizers = before.finalizers ++ added ∧
    (∀ token, token ∈ added ↔ token ∈ tokens ∧ token ∉ before.finalizers) ∧
    added.Pairwise fun a b => tokens.idxOf a < tokens.idxOf b
  changed : answer.2 = true ↔ answer.1.finalizers ≠ before.finalizers
  again : answer.1.register tokens = (answer.1, false)
  registered : isRegistered tokens answer.1.finalizers = true ↔ tokens ≠ []

structure TakesOff (tokens : List Token) (before : Workspace) (answer : Workspace × Bool) : Prop where
  left : answer.1.finalizers = before.finalizers.filter (· ∉ tokens)
  changed : answer.2 = true ↔ answer.1.finalizers ≠ before.finalizers
  unregistered : isRegistered tokens answer.1.finalizers = false

theorem appends_register (tokens : List Token) (w : Workspace) : Appends tokens w (w.register tokens) where
  added := ⟨missing tokens w.finalizers, register_eq .., fun _ => mem_missing, pairwise_missing ..⟩
  changed := changed_register tokens w.finalizers
  again := by
    simp only [Workspace.register, Workspace.finalizers_setFinalizers, register_again]
    rfl
  registered := by
    rw [isRegistered_iff]
    constructor
    · rintro ⟨token, declared, _⟩
      exact List.ne_nil_of_mem declared
    · intro some
      obtain ⟨token, declared⟩ := List.exists_mem_of_ne_nil tokens some
      exact ⟨token, declared, (Workspace.mem_finalizers_register tokens w).mpr (.inr declared)⟩

theorem takesOff_releaseIfIdle (tokens : List Token) (w : Workspace) (idle : Idle result) :
    TakesOff tokens w (w.releaseIfIdle tokens result) := by
  have left := (Workspace.finalizers_releaseIfIdle tokens result w).trans (releaseIfIdle_of_idle _ _ idle)
  refine ⟨left, ?_, ?_⟩
  · rw [Workspace.changed_releaseIfIdle, Workspace.finalizers_releaseIfIdle]
    exact changed_releaseIfIdle tokens w.finalizers idle
  · refine Bool.eq_false_iff.mpr fun registered => ?_
    obtain ⟨token, mine, there⟩ := isRegistered_iff.mp registered
    rw [left] at there
    simpa [mine] using List.of_mem_filter there

theorem releaseIfIdle_of_busy (tokens : List Token) (w : Workspace) (busy : ¬Idle result) :
    w.releaseIfIdle tokens result = (w, false) := by
  rcases result with error | outcome
  · rfl
  · have pending : ¬outcome.isDone = true := fun done => busy ⟨outcome, rfl, done⟩
    simp [Workspace.releaseIfIdle, Finalizer.releaseIfIdle, pending]

theorem setFinalizers_of_idle (tokens : List Token) (w : Workspace) (idle : Idle result) :
    (w.releaseIfIdle tokens result).1 = w.setFinalizers (w.finalizers.filter (· ∉ tokens)) := by
  have left := releaseIfIdle_of_idle tokens w.finalizers idle
  obtain ⟨outcome, rfl, done⟩ := idle
  simp only [Workspace.releaseIfIdle, done, ↓reduceIte, left]

theorem releaseIfIdle_comm (tokens others : List Token) (w : Workspace)
    (result result' : Except OperatorError Outcome) :
    ((w.releaseIfIdle tokens result).1.releaseIfIdle others result').1 =
      ((w.releaseIfIdle others result').1.releaseIfIdle tokens result).1 := by
  by_cases idle : Idle result
  · by_cases idle' : Idle result'
    · simp only [setFinalizers_of_idle, idle, idle', Workspace.finalizers_setFinalizers, List.filter_filter,
        Bool.and_comm]
      rfl
    · simp only [releaseIfIdle_of_busy _ _ idle']
  · simp only [releaseIfIdle_of_busy _ _ idle]

/-- Tokens that are added come after those that are there, each once, and nothing but them is taken off again, in
whatever order their owners do. A resource gets back the list that it had, exactly if it had none of them. -/
theorem added_and_taken_off (tokens others : List Token) (w : Workspace) :
    Appends tokens w (w.register tokens) ∧
      (∀ result, Idle result → TakesOff tokens w (w.releaseIfIdle tokens result)) ∧
      (∀ result, ¬Idle result → w.releaseIfIdle tokens result = (w, false)) ∧
      (∀ result result', ((w.releaseIfIdle tokens result).1.releaseIfIdle others result').1 =
        ((w.releaseIfIdle others result').1.releaseIfIdle tokens result).1) ∧
      ∀ result, Idle result → (((w.register tokens).1.releaseIfIdle tokens result).1.finalizers = w.finalizers ↔
        ∀ token ∈ tokens, token ∉ w.finalizers) := by
  refine ⟨appends_register tokens w, fun _ => takesOff_releaseIfIdle tokens w, fun _ => releaseIfIdle_of_busy tokens w,
    releaseIfIdle_comm tokens others w, fun result idle => ?_⟩
  have registered : (w.register tokens).1.finalizers = (register tokens w.finalizers).1 := rfl
  rw [(takesOff_releaseIfIdle tokens _ idle).left, registered, filter_register, filter_eq_self_iff]

def zoned : Workspace :=
  (default : Workspace).setFinalizers ["backup", "zone"]

theorem added_and_taken_off_overlapping :
    Idle (.ok .done) ∧ ¬Idle (.ok .requeueNow) ∧
      (zoned.register ["dns", "zone", "dns"]).1.finalizers = ["backup", "zone", "dns"] ∧
      TakesOff ["dns", "zone", "dns"] zoned (zoned.releaseIfIdle ["dns", "zone", "dns"] (.ok .done)) ∧
      zoned.releaseIfIdle ["dns", "zone", "dns"] (.ok .requeueNow) = (zoned, false) ∧
      ((zoned.register ["dns", "zone", "dns"]).1.releaseIfIdle ["dns", "zone", "dns"] (.ok .done)).1.finalizers ≠
        zoned.finalizers := by
  have idle : Idle (.ok .done) := ⟨.done, rfl, rfl⟩
  have busy : ¬Idle (.ok .requeueNow) := by
    rintro ⟨_, ⟨⟩, done⟩
    exact absurd done (by decide)
  obtain ⟨_, takesOff, keeps, _, restores⟩ := added_and_taken_off ["dns", "zone", "dns"] ["zone"] zoned
  exact ⟨idle, busy, by decide, takesOff _ idle, keeps _ busy, mt (restores _ idle).mp (by decide)⟩

end Finalizer

end Reconciler
