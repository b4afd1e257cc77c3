import Reconciler.Error.Message
import Reconciler.Log
import Reconciler.Store.Basic

set_option autoImplicit false

namespace Reconciler

structure Retry where
  maxAttempts : UInt32
  initialDelay : Duration
  maxDelay : Duration
  deriving DecidableEq, Repr

namespace Retry

def default : Retry := ⟨5, .ofMillis 10, .ofSeconds 1⟩

instance : Inhabited Retry := ⟨default⟩

inductive Part where
  | metadata
  | status
  deriving DecidableEq, Repr

def Part.text : Part → String
  | metadata => "update"
  | status => "status update"

-- Steps between half and three halves in which a delay is stretched.
def stretches : Nat := Nat.pow 2 52

def stretch (delay : Duration) (factor : Fin stretches) : Duration :=
  delay.scale (stretches / 2 + factor) stretches

structure World (σ : Type) extends Store σ where
  draw : σ → Fin stretches × σ
  sleep : Duration → σ → σ

structure Wait where
  delay : Duration
  length : Duration
  deriving DecidableEq, Repr

inductive Attempt where
  | unreadable (error : Error)
  | missing
  | written (read given : Workspace) (answer : Except Error Workspace) (wait : Option Wait)

structure Retried (σ : Type) where
  result : Except Error (Option Workspace)
  state : σ
  attempts : List Attempt

variable {σ : Type}

def write (world : World σ) : Part → Workspace → σ → Call σ (Except Error Workspace)
  | .metadata => world.update
  | .status => world.updateStatus

def nextDelay (r : Retry) (delay : Duration) : Duration :=
  delay.double.min r.maxDelay

def attempt (r : Retry) (world : World σ) (id : ResourceId) (part : Part)
    (change : Workspace → σ → Workspace × σ) : (left : Nat) → (delay : Duration) → σ → Retried σ
  | left, delay, state =>
      match (world.get id state).finish with
      | (.error error, state) => ⟨.error error, state, [.unreadable error]⟩
      | (.ok none, state) => ⟨.ok none, state, [.missing]⟩
      | (.ok (some read), state) =>
          -- The change starts from what was just read, never from an earlier attempt.
          let (given, state) := change read state
          match (write world part given state).finish with
          | (.ok stored, state) => ⟨.ok (some stored), state, [.written read given (.ok stored) none]⟩
          | (.error error, state) =>
              match left with
              | 0 => ⟨.error error, state, [.written read given (.error error) none]⟩
              | left + 1 =>
                  if error.isConflict then
                    let (factor, state) := world.draw state
                    let wait : Wait := ⟨delay, stretch delay factor⟩
                    let later := attempt r world id part change left (r.nextDelay delay) (world.sleep wait.length state)
                    { later with attempts := .written read given (.error error) (some wait) :: later.attempts }
                  else ⟨.error error, state, [.written read given (.error error) none]⟩

def run (r : Retry) (world : World σ) (id : ResourceId) (part : Part) (change : Workspace → σ → Workspace × σ)
    (state : σ) : Retried σ :=
  -- Zero attempts are one.
  attempt r world id part change (r.maxAttempts.toNat - 1) r.initialDelay state

def target : String := "converge_lifecycle::retry"

def Attempt.note? (id : ResourceId) (part : Part) (number : Nat) : Attempt → Option Log.Note
  | written _ _ (.error error) wait =>
      if error.isConflict then
        let fields : Log.Fields :=
          [("resource", .text id.text), ("write", .text part.text), ("attempt", .number number)]
        match wait with
        | some wait => some {
            level := .warn, target := target, message := "write conflicted, retrying",
            fields := fields ++ [("delay_ms", .number wait.length.millis)] }
        | none => some {
            level := .error, target := target, message := "write still conflicting after max attempts",
            fields := fields }
      else none
  | _ => none

def notes (id : ResourceId) (part : Part) (attempts : List Attempt) : List Log.Note :=
  attempts.zipIdx 1 |>.filterMap fun (attempt, number) => attempt.note? id part number

end Retry

end Reconciler
