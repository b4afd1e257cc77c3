set_option autoImplicit false

namespace Reconciler

-- Each time it waits, whoever made the call can give it up; what it did up to then stays done.
inductive Call (σ α : Type) where
  | done (answer : α) (state : σ)
  | waits (state : σ) (rest : Call σ α)

namespace Call

variable {σ α β : Type}

def map (f : α → β) : Call σ α → Call σ β
  | done answer state => done (f answer) state
  | waits state rest => waits state (rest.map f)

def bind : Call σ α → (α → σ → Call σ β) → Call σ β
  | done answer state, next => next answer state
  | waits state rest, next => waits state (rest.bind next)

def finish : Call σ α → α × σ
  | done answer state => (answer, state)
  | waits _ rest => rest.finish

inductive Ends : Call σ α → Option α → σ → Prop where
  | done (answer : α) (state : σ) : Ends (done answer state) (some answer) state
  | givenUp (state : σ) (rest : Call σ α) : Ends (waits state rest) none state
  | resumed {state : σ} {rest : Call σ α} {answer : Option α} {last : σ} :
      Ends rest answer last → Ends (waits state rest) answer last

def finishUnless (stop : σ → Bool) : Call σ α → Option α × σ
  | done answer state => (some answer, state)
  | waits state rest => if stop state then (none, state) else rest.finishUnless stop

@[simp] theorem finish_done (answer : α) (state : σ) : (done answer state).finish = (answer, state) := rfl

@[simp] theorem finishUnless_done (stop : σ → Bool) (answer : α) (state : σ) :
    (done answer state).finishUnless stop = (some answer, state) := rfl

theorem finish_map (f : α → β) (call : Call σ α) : (call.map f).finish = (f call.finish.1, call.finish.2) := by
  induction call with
  | done => rfl
  | waits _ _ ih => exact ih

theorem ends_done {answer : α} {state last : σ} {ended : Option α} (ends : (done answer state).Ends ended last) :
    ended = some answer ∧ last = state := by
  cases ends
  exact ⟨rfl, rfl⟩

theorem Ends.finish {call : Call σ α} {answer : α} {last : σ} (ends : call.Ends (some answer) last) :
    call.finish = (answer, last) := by
  induction call with
  | done => cases ends; rfl
  | waits _ rest ih =>
      cases ends with
      | resumed later => exact ih later

theorem ends_map {f : α → β} {call : Call σ α} {answer : β} {last : σ} (ends : (call.map f).Ends (some answer) last) :
    ∃ first, call.Ends (some first) last ∧ f first = answer := by
  induction call with
  | done first state =>
      obtain ⟨same, rfl⟩ := ends_done ends
      exact ⟨first, .done first last, (Option.some.inj same).symm⟩
  | waits _ rest ih =>
      cases ends with
      | resumed later =>
          obtain ⟨first, there, same⟩ := ih later
          exact ⟨first, .resumed there, same⟩

theorem ends_finishUnless (stop : σ → Bool) (call : Call σ α) :
    call.Ends (call.finishUnless stop).1 (call.finishUnless stop).2 := by
  induction call with
  | done answer state => exact .done answer state
  | waits state rest ih =>
      by_cases stopped : stop state = true
      · simpa [finishUnless, stopped] using Ends.givenUp state rest
      · simpa [finishUnless, stopped] using Ends.resumed ih

theorem finishUnless_never (call : Call σ α) :
    call.finishUnless (fun _ => false) = (some call.finish.1, call.finish.2) := by
  induction call with
  | done => rfl
  | waits _ _ ih => simpa [finishUnless, finish] using ih

end Call

end Reconciler
