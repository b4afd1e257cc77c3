import Reconciler.Error.Basic
import Reconciler.Workspace.Basic

set_option autoImplicit false

namespace Reconciler

structure Versioned where
  name : String
  objects : List (ResourceId × Workspace) := []
  revision : Nat := 0

namespace Versioned

def get? (store : Versioned) (id : ResourceId) : Option Workspace :=
  store.objects.lookup id

def insert (id : ResourceId) (w : Workspace) : List (ResourceId × Workspace) → List (ResourceId × Workspace)
  | [] => [(id, w)]
  | (other, v) :: rest =>
      if id = other then (id, w) :: rest
      else if id.before other then (id, w) :: (other, v) :: rest
      else (other, v) :: insert id w rest

def erase (id : ResourceId) (objects : List (ResourceId × Workspace)) : List (ResourceId × Workspace) :=
  objects.filter (·.1 ≠ id)

def nextVersion (store : Versioned) : String :=
  toString (store.revision + 1)

def put (store : Versioned) (id : ResourceId) (w : Workspace) : Versioned :=
  { store with
    objects := insert id (w.setResourceVersion (some store.nextVersion)) store.objects
    revision := store.revision + 1 }

def remove (store : Versioned) (id : ResourceId) : Versioned :=
  { store with objects := erase id store.objects }

-- A change by somebody else; it counts as one even if there is nothing to change.
def edit (store : Versioned) (id : ResourceId) (change : Workspace → Workspace) : Versioned :=
  match store.get? id with
  | some w => store.put id (change w)
  | none => { store with revision := store.revision + 1 }

def refusal (store : Versioned) (reason : String) (code : UInt16) : Error :=
  .client (.api ⟨"Failure", reason ++ " from " ++ store.name, reason, code⟩)

def writable (store : Versioned) (given : Workspace) : Except Error Workspace :=
  match store.get? given.id with
  | none => .error (store.refusal "NotFound" 404)
  | some stored =>
      if stored.metadata.resourceVersion = given.metadata.resourceVersion then .ok stored
      else .error (store.refusal "Conflict" 409)

-- What an update stores. All else that was given is ignored, the status among it.
def revised (store : Versioned) (stored given : Workspace) : Workspace :=
  ((stored.setFinalizers given.finalizers).setLabels given.labels).setResourceVersion (some store.nextVersion)

def update (store : Versioned) (given : Workspace) : Except Error Workspace × Versioned :=
  match store.writable given with
  | .error error => (.error error, store)
  | .ok stored =>
      let written := store.revised stored given
      let next := store.put given.id written
      (.ok written, if written.isBeingDeleted && written.finalizers.isEmpty then next.remove given.id else next)

def restated (store : Versioned) (stored given : Workspace) : Workspace :=
  ({ stored with status := given.status }).setResourceVersion (some store.nextVersion)

def updateStatus (store : Versioned) (given : Workspace) : Except Error Workspace × Versioned :=
  match store.writable given with
  | .error error => (.error error, store)
  | .ok stored =>
      -- A workspace without finalizers stays here even if it is being deleted.
      let written := store.restated stored given
      (.ok written, store.put given.id written)

theorem lookup_cons_if (key other : ResourceId) (w : Workspace) (rest : List (ResourceId × Workspace)) :
    ((key, w) :: rest).lookup other = if other = key then some w else rest.lookup other := by
  by_cases same : other = key
  · simp [same]
  · simp [List.lookup_cons, same, beq_false_of_ne same]

theorem lookup_insert (id other : ResourceId) (w : Workspace) (objects : List (ResourceId × Workspace)) :
    (insert id w objects).lookup other = if other = id then some w else objects.lookup other := by
  induction objects with
  | nil => simp [insert, lookup_cons_if]
  | cons first rest ih =>
      obtain ⟨key, v⟩ := first
      unfold insert
      split
      · rename_i same
        subst same
        simp only [lookup_cons_if]
        split <;> rfl
      · split
        · simp [lookup_cons_if]
        · rename_i apart _
          rw [lookup_cons_if, lookup_cons_if, ih]
          by_cases same : other = id
          · simp [same, apart]
          · simp [same]

theorem lookup_erase (id other : ResourceId) (objects : List (ResourceId × Workspace)) :
    (erase id objects).lookup other = if other = id then none else objects.lookup other := by
  unfold erase
  induction objects with
  | nil => simp
  | cons first rest ih =>
      obtain ⟨key, v⟩ := first
      by_cases gone : key = id
      · rw [List.filter_cons_of_neg (by simpa using gone), ih, lookup_cons_if, gone]
        split <;> rfl
      · rw [List.filter_cons_of_pos (by simpa using gone), lookup_cons_if, lookup_cons_if, ih]
        by_cases same : other = id
        · simp [same, Ne.symm gone]
        · simp [same]

theorem get?_put (store : Versioned) (id other : ResourceId) (w : Workspace) :
    (store.put id w).get? other =
      if other = id then some (w.setResourceVersion (some store.nextVersion)) else store.get? other :=
  lookup_insert ..

theorem get?_remove (store : Versioned) (id other : ResourceId) :
    (store.remove id).get? other = if other = id then none else store.get? other :=
  lookup_erase ..

end Versioned

end Reconciler
