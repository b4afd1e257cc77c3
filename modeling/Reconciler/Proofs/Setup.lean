import Reconciler.Manager

set_option autoImplicit false

namespace Reconciler

variable {σ : Type}

namespace Setup

structure Valid (setup : Setup σ) : Prop where
  operator : Text.trim setup.operator ≠ ""
  controller : Text.trim setup.controller ≠ ""
  named : ∀ s ∈ setup.subroutines, Text.trim s.name ≠ ""
  distinct : (setup.subroutines.map (·.name)).Nodup
  tokens : ∀ s ∈ setup.subroutines, ∀ token ∈ s.finalizers, Text.trim token ≠ ""

inductive Offends (before : List (Subroutine σ)) (s : Subroutine σ) : Nat → Fault → Prop where
  | unnamed : Text.trim s.name = "" → Offends before s 0 .blankName
  | again : s.name ∈ before.map (·.name) → Offends before s 1 (.duplicateName s.name)
  | blankToken {token} :
      token ∈ s.finalizers → Text.trim token = "" → Offends before s 2 (.blankFinalizer s.name)

inductive Violates (setup : Setup σ) : Nat → Fault → Prop where
  | operator : Text.trim setup.operator = "" → Violates setup 0 .blankOperator
  | controller : Text.trim setup.controller = "" → Violates setup 1 .blankController
  | subroutine {before s after check fault} :
      setup.subroutines = before ++ s :: after → Offends before s check fault →
      Violates setup (2 + 3 * before.length + check) fault

def SoundBefore (finds : Nat → Fault → Prop) (n : Nat) : Prop :=
  ∀ k < n, ∀ fault, ¬finds k fault

inductive Fault.Says : Fault → String → Prop where
  | blankOperator : Says .blankOperator "operator name must not be empty"
  | blankController : Says .blankController "controller name must not be empty"
  | blankName : Says .blankName "subroutine name must not be empty"
  | duplicateName {name} : Says (.duplicateName name) ("duplicate subroutine name: " ++ name)
  | blankFinalizer {name} : Says (.blankFinalizer name) ("subroutine " ++ name ++ " declares an empty finalizer")

-- What the checks find first: that fault, or none at all.
def Judged (setup : Setup σ) : Option Fault → Prop
  | none => ∀ n, SoundBefore (Violates setup) n
  | some fault => ∃ n, Violates setup n fault ∧ SoundBefore (Violates setup) n

section

variable {setup : Setup σ} {s : Subroutine σ} {before after rest : List (Subroutine σ)} {seen : List String}
variable {fault fault' : Fault} {n check : Nat} {answer answer' : Option Fault} {finds : Nat → Fault → Prop}

theorem Fault.says_iff {text : String} : fault.Says text ↔ text = fault.message := by
  constructor
  · rintro (_ | _ | _ | _ | _) <;> rfl
  · rintro rfl
    cases fault <;> constructor

theorem SoundBefore.start : SoundBefore finds 0 :=
  fun _ earlier => absurd earlier (Nat.not_lt_zero _)

theorem SoundBefore.next (sound : SoundBefore finds n) (clean : ∀ fault, ¬finds n fault) :
    SoundBefore finds (n + 1) := by
  intro k earlier fault
  rcases Nat.lt_succ_iff_lt_or_eq.mp earlier with before | rfl
  · exact sound k before fault
  · exact clean fault

theorem Offends.lt (offends : Offends before s check fault) : check < 3 := by
  cases offends <;> decide

theorem Offends.unique (offends : Offends before s check fault) (offends' : Offends before s check fault') :
    fault = fault' := by
  cases offends <;> cases offends' <;> rfl

theorem Violates.lt (violates : Violates setup n fault) : n < 2 + 3 * setup.subroutines.length := by
  cases violates with
  | operator => omega
  | controller => omega
  | subroutine split offends =>
      have within := offends.lt
      have longer := congrArg List.length split
      simp only [List.length_append, List.length_cons] at longer
      omega

theorem Violates.offends (violates : Violates setup n fault) (split : setup.subroutines = before ++ s :: after)
    (within : check < 3) (number : n = 2 + 3 * before.length + check) : Offends before s check fault := by
  cases violates with
  | operator => omega
  | controller => omega
  | subroutine other offends =>
      have within' := offends.lt
      obtain ⟨rfl, same⟩ := List.append_inj (other.symm.trans split) (by omega)
      obtain ⟨rfl, _⟩ := List.cons.inj same
      obtain rfl := Nat.add_left_cancel number
      exact offends

theorem violates_zero_iff : Violates setup 0 fault ↔ Text.trim setup.operator = "" ∧ fault = .blankOperator := by
  constructor
  · generalize number : 0 = n
    intro violates
    cases violates with
    | operator blank => exact ⟨blank, rfl⟩
    | controller => omega
    | subroutine => omega
  · rintro ⟨blank, rfl⟩
    exact .operator blank

theorem violates_one_iff : Violates setup 1 fault ↔ Text.trim setup.controller = "" ∧ fault = .blankController := by
  constructor
  · generalize number : 1 = n
    intro violates
    cases violates with
    | operator => omega
    | controller blank => exact ⟨blank, rfl⟩
    | subroutine => omega
  · rintro ⟨blank, rfl⟩
    exact .controller blank

theorem Violates.unique (violates : Violates setup n fault) (violates' : Violates setup n fault') : fault = fault' := by
  cases violates with
  | operator => exact (violates_zero_iff.mp violates').2.symm
  | controller => exact (violates_one_iff.mp violates').2.symm
  | subroutine split offends => exact offends.unique (violates'.offends split offends.lt rfl)

theorem Judged.clean (judged : Judged setup none) (n : Nat) (fault : Fault) : ¬Violates setup n fault :=
  judged (n + 1) n n.lt_succ_self fault

theorem Judged.unique (judged : Judged setup answer) (judged' : Judged setup answer') : answer = answer' := by
  cases answer with
  | none =>
      cases answer' with
      | none => rfl
      | some fault' =>
          obtain ⟨n, violates, _⟩ := judged'
          exact absurd violates (judged.clean n fault')
  | some fault =>
      obtain ⟨n, violates, sound⟩ := judged
      cases answer' with
      | none => exact absurd violates (judged'.clean n fault)
      | some fault' =>
          obtain ⟨n', violates', sound'⟩ := judged'
          rcases Nat.lt_trichotomy n n' with earlier | rfl | later
          · exact absurd violates (sound' n earlier fault)
          · exact congrArg some (violates.unique violates')
          · exact absurd violates' (sound n' later fault')

theorem SoundBefore.within (sound : SoundBefore (Violates setup) (2 + 3 * before.length))
    (split : setup.subroutines = before ++ s :: after) (few : check ≤ 3)
    (clean : SoundBefore (Offends before s) check) :
    SoundBefore (Violates setup) (2 + 3 * before.length + check) := by
  intro n earlier fault violates
  by_cases first : n < 2 + 3 * before.length
  · exact sound n first fault violates
  · obtain ⟨k, rfl⟩ := Nat.exists_eq_add_of_le (Nat.le_of_not_lt first)
    exact clean k (by omega) fault (violates.offends split (by omega) rfl)

theorem subroutineFault?_cons (s : Subroutine σ) (rest : List (Subroutine σ))
    (names : ∀ name, name ∈ seen ↔ name ∈ before.map (·.name)) :
    (∃ check fault, subroutineFault? seen (s :: rest) = some fault ∧ Offends before s check fault ∧
      SoundBefore (Offends before s) check) ∨
    subroutineFault? seen (s :: rest) = subroutineFault? (s.name :: seen) rest ∧ SoundBefore (Offends before s) 3 := by
  simp only [subroutineFault?, ← Text.trim_eq_empty_iff, List.contains_iff_mem, names, List.any_eq_true]
  by_cases unnamed : Text.trim s.name = ""
  · exact .inl ⟨0, _, if_pos unnamed, .unnamed unnamed, .start⟩
  have named : SoundBefore (Offends before s) 1 := SoundBefore.start.next fun fault offends => by
    cases offends with
    | unnamed blank => exact unnamed blank
  rw [if_neg unnamed]
  by_cases again : s.name ∈ before.map (·.name)
  · exact .inl ⟨1, _, if_pos again, .again again, named⟩
  have new : SoundBefore (Offends before s) 2 := named.next fun fault offends => by
    cases offends with
    | again known => exact again known
  rw [if_neg again]
  by_cases bare : ∃ token ∈ s.finalizers, Text.trim token = ""
  · rw [if_pos bare]
    obtain ⟨token, member, blank⟩ := bare
    exact .inl ⟨2, _, rfl, .blankToken member blank, new⟩
  have marked : SoundBefore (Offends before s) 3 := new.next fun fault offends => by
    cases offends with
    | blankToken member blank => exact bare ⟨_, member, blank⟩
  exact .inr ⟨if_neg bare, marked⟩

theorem judged_subroutineFault? (before rest : List (Subroutine σ)) (split : setup.subroutines = before ++ rest)
    (names : ∀ name, name ∈ seen ↔ name ∈ before.map (·.name))
    (sound : SoundBefore (Violates setup) (2 + 3 * before.length)) : Judged setup (subroutineFault? seen rest) := by
  induction rest generalizing before seen with
  | nil =>
      intro n k _ fault violates
      have within := violates.lt
      rw [split, List.append_nil] at within
      exact sound k within fault violates
  | cons s rest ih =>
      rcases subroutineFault?_cons s rest names with ⟨check, fault, found, offends, clean⟩ | ⟨on, clean⟩
      · rw [found]
        exact ⟨_, .subroutine split offends, sound.within split (Nat.le_of_lt offends.lt) clean⟩
      · rw [on]
        refine ih (before ++ [s]) (by simpa using split) (fun name => ?_) ?_
        · simp [names, or_comm]
        · have sound := sound.within split (Nat.le_refl 3) clean
          rwa [List.length_append, List.length_singleton, Nat.mul_add, ← Nat.add_assoc]

theorem judged_fault? (setup : Setup σ) : Judged setup setup.fault? := by
  simp only [fault?, ← Text.trim_eq_empty_iff]
  by_cases unnamed : Text.trim setup.operator = ""
  · rw [if_pos unnamed]
    exact ⟨0, .operator unnamed, .start⟩
  have operator : SoundBefore (Violates setup) 1 := SoundBefore.start.next fun fault violates =>
    unnamed (violates_zero_iff.mp violates).1
  rw [if_neg unnamed]
  by_cases unnamed' : Text.trim setup.controller = ""
  · rw [if_pos unnamed']
    exact ⟨1, .controller unnamed', operator⟩
  have controller : SoundBefore (Violates setup) 2 := operator.next fun fault violates =>
    unnamed' (violates_one_iff.mp violates).1
  rw [if_neg unnamed']
  exact judged_subroutineFault? [] _ rfl (by simp) controller

theorem fault?_eq_iff : setup.fault? = answer ↔ Judged setup answer := by
  constructor
  · rintro rfl
    exact judged_fault? setup
  · exact (judged_fault? setup).unique

theorem valid_iff : Valid setup ↔ setup.fault? = none := by
  constructor
  · intro valid
    refine fault?_eq_iff.mpr fun n k _ fault violates => ?_
    cases violates with
    | operator blank => exact valid.operator blank
    | controller blank => exact valid.controller blank
    | subroutine split offends =>
        cases offends with
        | unnamed blank => exact valid.named _ (by simp [split]) blank
        | again known =>
            have distinct := valid.distinct
            rw [split, List.map_append, List.map_cons] at distinct
            exact (List.nodup_append.mp distinct).2.2 _ known _ List.mem_cons_self rfl
        | blankToken member blank => exact valid.tokens _ (by simp [split]) _ member blank
  · intro faultless
    have clean := (fault?_eq_iff.mp faultless).clean
    refine ⟨fun blank => clean _ _ (.operator blank), fun blank => clean _ _ (.controller blank),
      fun s member blank => ?_, Manager.names_nodup ⟨setup, faultless⟩, fun s member token own blank => ?_⟩
    · obtain ⟨before, after, split⟩ := List.append_of_mem member
      exact clean _ _ (.subroutine split (.unnamed blank))
    · obtain ⟨before, after, split⟩ := List.append_of_mem member
      exact clean _ _ (.subroutine split (.blankToken own blank))

end

end Setup

namespace Manager

theorem build_eq_ok_iff {setup : Setup σ} {m : Manager σ} : build setup = .ok m ↔ m.toSetup = setup := by
  unfold build
  split
  case h_1 faultless =>
    constructor
    · rintro ⟨⟩
      rfl
    · rintro rfl
      rfl
  case h_2 fault faulty =>
    constructor
    · nofun
    · rintro rfl
      simp [m.faultless] at faulty

theorem build_eq_error_iff {setup : Setup σ} {error : Error} :
    build setup = .error error ↔ ∃ fault, setup.fault? = some fault ∧ error = .configuration fault.message := by
  unfold build
  split
  case h_1 faultless => simp [faultless]
  case h_2 fault faulty => simp [faulty, eq_comm]

/-- A manager is built exactly from a valid setup, and keeps it as it is. Otherwise the error is about the first fault
that the checks find. -/
theorem built_iff_valid (setup : Setup σ) :
    ((∃ m, build setup = .ok m) ↔ setup.Valid) ∧
      (∀ m, build setup = .ok m ↔ setup.Valid ∧ m.toSetup = setup) ∧
      ∀ error, build setup = .error error ↔
        ∃ fault text, setup.Judged (some fault) ∧ fault.Says text ∧ error = .configuration text := by
  have built (m : Manager σ) : build setup = .ok m ↔ setup.Valid ∧ m.toSetup = setup := by
    rw [build_eq_ok_iff, Setup.valid_iff]
    constructor
    · rintro rfl
      exact ⟨m.faultless, rfl⟩
    · exact And.right
  refine ⟨⟨?_, fun valid => ?_⟩, built, fun error => ?_⟩
  · rintro ⟨m, same⟩
    exact ((built m).mp same).1
  · exact ⟨⟨setup, Setup.valid_iff.mp valid⟩, (built _).mpr ⟨valid, rfl⟩⟩
  · simp only [build_eq_error_iff, Setup.fault?_eq_iff, Setup.Fault.says_iff, exists_and_left, exists_eq_left]

end Manager

end Reconciler
