import Reconciler.Controller.Basic
import Reconciler.Controller.Queue

set_option autoImplicit false

namespace Reconciler.Controller

structure Settings where
  errorRequeue : Duration
  concurrency : Nat
  debugValue : String
  stop : Duration

inductive Change where
  | present (w : Workspace)
  | deleted (w : Workspace)

structure Agenda where
  known : List (ResourceId × Workspace) := []
  queue : Queue := []
  changes : List (Duration × Change)

namespace Agenda

def insert (id : ResourceId) (w : Workspace) : List (ResourceId × Workspace) → List (ResourceId × Workspace)
  | [] => [(id, w)]
  | (other, v) :: rest => if other = id then (id, w) :: rest else (other, v) :: insert id w rest

def learn (agenda : Agenda) (time : Duration) : Change → Agenda
  | .present w => { agenda with
      known := insert w.id w agenda.known
      queue := agenda.queue.schedule w.id time }
  | .deleted w => { agenda with known := agenda.known.filter (·.1 ≠ w.id) }

-- Timers go off at whole milliseconds, never early.
def timer (time after : Duration) : Duration :=
  .ofMillis ((time.nanos + after.nanos + 999999) / 1000000)

def act (agenda : Agenda) (id : ResourceId) (time : Duration) : Action → Agenda
  | .awaitChange => agenda
  | .requeue after => { agenda with queue := agenda.queue.schedule id (timer time after) }

end Agenda

inductive Next where
  | stop
  | change (time : Duration) (change : Change) (later : List (Duration × Change))
  | reconcile (time : Duration) (id : ResourceId)

-- A stop comes before everything else at its time, and a report before a reconcile.
def next (agenda : Agenda) (stop : Duration) : Next :=
  match agenda.changes, agenda.queue.next? with
  | [], none => .stop
  | (time, change) :: later, none => if time < stop then .change time change later else .stop
  | [], some (id, due) => if due < stop then .reconcile due id else .stop
  | (time, change) :: later, some (id, due) =>
      if time ≤ due then
        if time < stop then .change time change later else .stop
      else if due < stop then .reconcile due id else .stop

def reference (w : Workspace) : String :=
  "Workspace.v1alpha1.converge.dev/" ++ w.displayName ++ (w.metadata.ns.map ("." ++ ·)).getD ""

def actionText : Action → String
  | .awaitChange => "Action \x7b requeue_after: None \x7d"
  | .requeue after => "Action \x7b requeue_after: Some(" ++ after.text ++ ") \x7d"

variable {σ : Type}

def log (level : Log.Level) (message controller : String) (fields : Log.Fields) : Run σ Unit :=
  Run.emit (.logged ⟨⟨level, target, message, ("controller", .text controller) :: fields⟩, []⟩)

def attend (m : Manager σ) (world : World σ) (settings : Settings) (w : Workspace) : Run σ (Option Action) := do
  match ← reconcile m world w with
  | .ok action =>
      log .debug "reconciliation completed" m.controller
        [("object", .text (reference w)), ("action", .text (actionText action))]
      pure (some action)
  | .error (.error error) =>
      Run.emit (.logged ⟨errorNote w error, []⟩)
      log .debug "controller error" m.controller
        [("error", .text ("reconciler for object " ++ reference w ++ " failed"))]
      pure (some (errorAction error settings.errorRequeue))
  | .error .beyondCalendar => pure none

-- At most `fuel` reports and reconciles; the answer is the time of the end. `tick` sets the clock of the world.
def loop (m : Manager σ) (world : World σ) (settings : Settings) (tick : Duration → σ → σ) :
    (fuel : Nat) → (now : Duration) → Agenda → Run σ Duration
  | 0, now, _ => pure now
  | fuel + 1, now, agenda => do
      if ← Run.observe world.cancelled then
        pure now
      else
        match next agenda settings.stop with
        | .stop => pure settings.stop
        | .change time change later =>
            loop m world settings tick fuel time ({ agenda with changes := later }.learn time change)
        | .reconcile time id =>
            Run.change fun state => ((), tick time state)
            -- It leaves the queue first, so that its own action can put it back.
            let agenda := { agenda with queue := agenda.queue.remove id }
            match agenda.known.lookup id with
            | none =>
                log .debug "controller error" m.controller [("error", .text ("tried to reconcile object " ++
                  reference ⟨{ name := some id.name, ns := some id.ns }, ⟨"", .empty⟩, none⟩ ++
                  " that was not found in local store"))]
                loop m world settings tick fuel time agenda
            | some w =>
                match ← attend m world settings w with
                | some action => loop m world settings tick fuel time (agenda.act id time action)
                | none => pure time

def run (m : Manager σ) (world : World σ) (settings : Settings) (tick : Duration → σ → σ) (fuel : Nat)
    (listed : List Workspace) (changes : List (Duration × Change)) : Run σ Duration := do
  log .info "starting controller" m.controller
    [("concurrency", .number settings.concurrency), ("debug_label_value", .text settings.debugValue)]
  let agenda := listed.foldl (fun agenda w => agenda.learn .zero (.present w)) ({ changes := changes } : Agenda)
  let stopped ← loop m world settings tick fuel .zero agenda
  log .info "controller stopped" m.controller []
  pure stopped

end Reconciler.Controller
