import Reconciler.Condition.Ledger
import Reconciler.Json.Basic
import Reconciler.Workspace.Labels

set_option autoImplicit false

namespace Reconciler

structure ResourceId where
  ns : String
  name : String
  deriving DecidableEq, Repr

namespace ResourceId

def text (id : ResourceId) : String :=
  id.ns ++ "/" ++ id.name

def before (a b : ResourceId) : Bool :=
  a.ns < b.ns || (a.ns = b.ns && a.name < b.name)

def insertSorted (id : ResourceId) : List ResourceId → List ResourceId
  | [] => [id]
  | other :: rest =>
      if id.before other then id :: other :: rest
      else if id = other then other :: rest
      else other :: insertSorted id rest

def sort (ids : List ResourceId) : List ResourceId :=
  ids.foldr insertSorted []

end ResourceId

structure OwnerReference where
  apiVersion : String
  kind : String
  name : String
  uid : String
  controller : Option Bool
  blockOwnerDeletion : Option Bool
  deriving DecidableEq, Repr

structure ManagedFields where
  apiVersion : Option String
  fieldsType : Option String
  fields : Option Json
  manager : Option String
  operation : Option String
  subresource : Option String
  time : Option Timestamp
  deriving DecidableEq, Repr

structure Metadata where
  annotations : Option Labels := none
  creationTimestamp : Option Timestamp := none
  deletionGracePeriodSeconds : Option Int64 := none
  deletionTimestamp : Option Timestamp := none
  finalizers : Option (List String) := none
  generateName : Option String := none
  generation : Option Int64 := none
  labels : Option Labels := none
  managedFields : Option (List ManagedFields) := none
  name : Option String := none
  ns : Option String := none
  ownerReferences : Option (List OwnerReference) := none
  resourceVersion : Option String := none
  selfLink : Option String := none
  uid : Option String := none
  deriving DecidableEq, Repr

namespace Workspace

structure Spec where
  target : String
  labels : Labels := .empty
  deriving DecidableEq, Repr

structure Status where
  provided : Option String := none
  conditions : Ledger := []
  observedGeneration : Option Int64 := none
  nextReconcile : Option Timestamp := none
  deriving DecidableEq, Repr

end Workspace

structure Workspace where
  metadata : Metadata
  spec : Workspace.Spec
  status : Option Workspace.Status := none
  deriving DecidableEq, Repr

instance : Inhabited Workspace := ⟨{ metadata := {}, spec := { target := "" } }⟩

namespace Workspace

def displayName (w : Workspace) : String :=
  (w.metadata.name.or w.metadata.generateName).getD ""

def id (w : Workspace) : ResourceId :=
  ⟨w.metadata.ns.getD "", w.displayName⟩

def isBeingDeleted (w : Workspace) : Bool :=
  w.metadata.deletionTimestamp.isSome

def generation (w : Workspace) : Int64 :=
  w.metadata.generation.getD 0

def finalizers (w : Workspace) : List String :=
  w.metadata.finalizers.getD []

def labels (w : Workspace) : Labels :=
  w.metadata.labels.getD .empty

def setFinalizers (w : Workspace) (tokens : List String) : Workspace :=
  { w with metadata := { w.metadata with finalizers := some tokens } }

def setLabels (w : Workspace) (labels : Labels) : Workspace :=
  { w with metadata := { w.metadata with labels := some labels } }

def setResourceVersion (w : Workspace) (version : Option String) : Workspace :=
  { w with metadata := { w.metadata with resourceVersion := version } }

def currentStatus (w : Workspace) : Status :=
  w.status.getD {}

def modifyStatus (w : Workspace) (f : Status → Status) : Workspace :=
  { w with status := some (f w.currentStatus) }

def conditions (w : Workspace) : Ledger :=
  w.currentStatus.conditions

def setConditions (w : Workspace) (ledger : Ledger) : Workspace :=
  w.modifyStatus fun s => { s with conditions := ledger }

@[simp] theorem currentStatus_modifyStatus (w : Workspace) (f : Status → Status) :
    (w.modifyStatus f).currentStatus = f w.currentStatus := rfl

@[simp] theorem metadata_modifyStatus (w : Workspace) (f : Status → Status) :
    (w.modifyStatus f).metadata = w.metadata := rfl

@[simp] theorem spec_modifyStatus (w : Workspace) (f : Status → Status) :
    (w.modifyStatus f).spec = w.spec := rfl

@[simp] theorem finalizers_setFinalizers (w : Workspace) (tokens : List String) :
    (w.setFinalizers tokens).finalizers = tokens := rfl

@[simp] theorem labels_setLabels (w : Workspace) (labels : Labels) :
    (w.setLabels labels).labels = labels := rfl

end Workspace

end Reconciler
