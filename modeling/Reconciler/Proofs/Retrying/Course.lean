import Reconciler.Retry

set_option autoImplicit false

namespace Reconciler.Retry

variable {σ : Type}

namespace Attempt

def conflicts : Attempt → Bool
  | written _ _ (.error error) _ => error.isConflict
  | _ => false

def wait? : Attempt → Option Wait
  | written _ _ _ wait => wait
  | _ => none

def result : Attempt → Except Error (Option Workspace)
  | unreadable error => .error error
  | missing => .ok none
  | written _ _ answer _ => answer.map some

end Attempt

def least : Fin stretches := ⟨0, by decide⟩

structure Visit (σ : Type) where
  attempt : Attempt
  before : σ
  after : σ

inductive Calls (world : World σ) (id : ResourceId) (part : Part) (change : Workspace → σ → Workspace × σ) :
    Attempt → σ → σ → Prop where
  | unreadable {s error s'} :
      (world.get id s).finish = (.error error, s') → Calls world id part change (.unreadable error) s s'
  | missing {s s'} :
      (world.get id s).finish = (.ok none, s') → Calls world id part change .missing s s'
  | written {s read s₁ given s₂ answer s' wait} :
      (world.get id s).finish = (.ok (some read), s₁) → change read s₁ = (given, s₂) →
      (write world part given s₂).finish = (answer, s') →
      Calls world id part change (.written read given answer wait) s s'

def Pauses (world : World σ) (wait : Wait) (s s' : σ) : Prop :=
  wait.length = stretch wait.delay (world.draw s).1 ∧ s' = world.sleep wait.length (world.draw s).2

inductive Tries (r : Retry) (world : World σ) (id : ResourceId) (part : Part)
    (change : Workspace → σ → Workspace × σ) :
    Nat → Duration → σ → List (Visit σ) → Except Error (Option Workspace) → σ → Prop where
  | last {left delay s attempt s'} :
      Calls world id part change attempt s s' → attempt.wait? = none → (attempt.conflicts = true → left = 0) →
      Tries r world id part change left delay s [⟨attempt, s, s'⟩] attempt.result s'
  | again {left delay s attempt s₁ wait s₂ visits result s'} :
      Calls world id part change attempt s s₁ → attempt.conflicts = true → attempt.wait? = some wait →
      wait.delay = delay → Pauses world wait s₁ s₂ →
      Tries r world id part change left (r.nextDelay delay) s₂ visits result s' →
      Tries r world id part change (left + 1) delay s (⟨attempt, s, s₁⟩ :: visits) result s'

section

variable {r : Retry} {world : World σ} {id : ResourceId} {part : Part} {change : Workspace → σ → Workspace × σ}
variable {left : Nat} {delay : Duration} {s s' : σ} {visits : List (Visit σ)}
variable {result : Except Error (Option Workspace)}

theorem attempt_tries (left : Nat) (delay : Duration) (s : σ) :
    ∃ visits, visits.map (·.attempt) = (attempt r world id part change left delay s).attempts ∧
      Tries r world id part change left delay s visits (attempt r world id part change left delay s).result
        (attempt r world id part change left delay s).state := by
  -- The cases of the definition; it goes on in the fifth alone, where a conflict leaves attempts.
  fun_induction attempt r world id part change left delay s with
  | case1 left delay s error s' read =>
      exact ⟨[⟨.unreadable error, s, s'⟩], rfl, .last (.unreadable read) rfl nofun⟩
  | case2 left delay s s' read =>
      exact ⟨[⟨.missing, s, s'⟩], rfl, .last (.missing read) rfl nofun⟩
  | case3 left delay s found s₁ read given s₂ changed stored s' wrote =>
      exact ⟨[⟨.written found given (.ok stored) none, s, s'⟩], rfl, .last (.written read changed wrote) rfl nofun⟩
  | case4 delay s found s₁ read given s₂ changed error s' wrote =>
      exact ⟨[⟨.written found given (.error error) none, s, s'⟩], rfl,
        .last (.written read changed wrote) rfl fun _ => rfl⟩
  | case5 delay s found s₁ read given s₂ changed error s₃ wrote left conflict factor s₄ drawn wait later ih =>
      obtain ⟨visits, same, tries⟩ := ih
      refine ⟨⟨.written found given (.error error) (some wait), s, s₃⟩ :: visits, by simp [same, later], ?_⟩
      exact .again (.written read changed wrote) conflict rfl rfl ⟨by rw [drawn], by rw [drawn]⟩ tries
  | case6 delay s found s₁ read given s₂ changed error s' wrote left other =>
      exact ⟨[⟨.written found given (.error error) none, s, s'⟩], rfl,
        .last (.written read changed wrote) rfl fun conflict => absurd conflict other⟩

theorem run_tries (r : Retry) (world : World σ) (id : ResourceId) (part : Part)
    (change : Workspace → σ → Workspace × σ) (s : σ) :
    ∃ visits, visits.map (·.attempt) = (r.run world id part change s).attempts ∧
      Tries r world id part change (r.maxAttempts.toNat - 1) r.initialDelay s visits
        (r.run world id part change s).result (r.run world id part change s).state :=
  attempt_tries ..

theorem Tries.length_pos (tries : Tries r world id part change left delay s visits result s') : 0 < visits.length := by
  cases tries <;> simp

theorem Tries.length_le (tries : Tries r world id part change left delay s visits result s') :
    visits.length ≤ left + 1 := by
  induction tries with
  | last => simp
  | again _ _ _ _ _ _ ih => simpa using ih

theorem Tries.calls (tries : Tries r world id part change left delay s visits result s') :
    ∀ visit ∈ visits, Calls world id part change visit.attempt visit.before visit.after := by
  induction tries with
  | last calls _ _ => simpa using calls
  | again calls _ _ _ _ _ ih => simpa using ⟨calls, ih⟩

theorem Tries.parted (tries : Tries r world id part change left delay s visits result s') :
    ∃ past visit, visits = past ++ [visit] ∧ (∀ earlier ∈ past, earlier.attempt.conflicts = true) ∧
      visit.attempt.result = result ∧ visit.after = s' := by
  induction tries with
  | last => exact ⟨[], _, rfl, by simp, rfl, rfl⟩
  | again _ conflict _ _ _ _ ih =>
      obtain ⟨past, visit, rfl, earlier, same⟩ := ih
      exact ⟨_ :: past, visit, rfl, by simpa using ⟨conflict, earlier⟩, same⟩

end

end Reconciler.Retry
