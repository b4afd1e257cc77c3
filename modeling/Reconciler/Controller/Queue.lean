import Reconciler.Workspace.Basic

set_option autoImplicit false

namespace Reconciler.Controller

abbrev Queue := List (ResourceId × Duration)

namespace Queue

def schedule (id : ResourceId) (due : Duration) : Queue → Queue
  | [] => [(id, due)]
  | (other, time) :: rest =>
      if other = id then (other, if due < time then due else time) :: rest
      else (other, time) :: schedule id due rest

def remove (id : ResourceId) (queue : Queue) : Queue :=
  queue.filter (·.1 ≠ id)

def next? : Queue → Option (ResourceId × Duration)
  | [] => none
  | entry :: rest =>
      match next? rest with
      | some other => if other.2 < entry.2 then some other else some entry
      | none => some entry

end Queue

end Reconciler.Controller
