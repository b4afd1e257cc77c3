import Reconciler.Time.Text
import Reconciler.Workspace.Basic

set_option autoImplicit false

namespace Reconciler

namespace Json

def record? (names : List String) : Json → Option (List (String × Json))
  | .object members => if eachOnce names members then some members else none
  -- Fields at the end may be missing, but there must be a field for every item.
  | .array items => if items.length ≤ names.length then some (names.zip items) else none
  | _ => none

def required {α : Type} (name : String) (read : Json → Option α) (members : List (String × Json)) : Option α :=
  (lookup name members).bind read

def optional {α : Type} (name : String) (read : Json → Option α) (members : List (String × Json)) :
    Option (Option α) :=
  match lookup name members with
  | none => some none
  | some .null => some none
  | some value => (read value).map some

def defaulted {α : Type} (name : String) (default : α) (read : Json → Option α)
    (members : List (String × Json)) : Option α :=
  match lookup name members with
  | none => some default
  | some value => read value

def listOf? {α : Type} (read : Json → Option α) : Json → Option (List α)
  | .array items => items.mapM read
  | _ => none

def int64? : Json → Option Int64
  | .integer n => if Int64.minValue.toInt ≤ n ∧ n ≤ Int64.maxValue.toInt then some (Int64.ofInt n) else none
  | _ => none

def word16? : Json → Option UInt16
  | .integer n => if 0 ≤ n ∧ n < UInt16.size then some (UInt16.ofNat n.toNat) else none
  | _ => none

def word32? : Json → Option UInt32
  | .integer n => if 0 ≤ n ∧ n < UInt32.size then some (UInt32.ofNat n.toNat) else none
  | _ => none

def timestamp? : Json → Option Timestamp
  | .string s => Timestamp.parse? s
  | _ => none

def labels? : Json → Option Labels
  | .object members => do
      let entries ← members.mapM fun (key, value) => value.string?.map (key, ·)
      pure (Labels.ofList entries)
  | _ => none

end Json

open Json

-- A name without content, written as the name alone or as a member with the value null.
def Json.unitName? : Json → Option String
  | .string s => some s
  | .object [(name, .null)] => some name
  | _ => none

def ConditionStatus.ofJson? (j : Json) : Option ConditionStatus :=
  j.unitName?.bind ConditionStatus.ofText?

def Condition.ofJson? (j : Json) : Option Condition := do
  let members ← record? ["type", "status", "reason", "message", "lastTransitionTime"] j
  pure {
    type := ← required "type" string? members
    status := ← required "status" ConditionStatus.ofJson? members
    reason := ← required "reason" string? members
    message := ← required "message" string? members
    lastTransition := ← required "lastTransitionTime" timestamp? members }

-- Texts that are required elsewhere are empty here when they are absent.
def OwnerReference.ofJson? : Json → Option OwnerReference
  | .object members => do
      pure {
        apiVersion := (← optional "apiVersion" string? members).getD ""
        kind := (← optional "kind" string? members).getD ""
        name := (← optional "name" string? members).getD ""
        uid := (← optional "uid" string? members).getD ""
        controller := ← optional "controller" bool? members
        blockOwnerDeletion := ← optional "blockOwnerDeletion" bool? members }
  | _ => none

def ManagedFields.ofJson? : Json → Option ManagedFields
  | .object members => do
      pure {
        apiVersion := ← optional "apiVersion" string? members
        fieldsType := ← optional "fieldsType" string? members
        fields := ← optional "fieldsV1" some members
        manager := ← optional "manager" string? members
        operation := ← optional "operation" string? members
        subresource := ← optional "subresource" string? members
        time := ← optional "time" timestamp? members }
  | _ => none

def Metadata.ofJson? : Json → Option Metadata
  | .object members => do
      pure {
        annotations := ← optional "annotations" labels? members
        creationTimestamp := ← optional "creationTimestamp" timestamp? members
        deletionGracePeriodSeconds := ← optional "deletionGracePeriodSeconds" int64? members
        deletionTimestamp := ← optional "deletionTimestamp" timestamp? members
        finalizers := ← optional "finalizers" (listOf? string?) members
        generateName := ← optional "generateName" string? members
        generation := ← optional "generation" int64? members
        labels := ← optional "labels" labels? members
        managedFields := ← optional "managedFields" (listOf? ManagedFields.ofJson?) members
        name := ← optional "name" string? members
        ns := ← optional "namespace" string? members
        ownerReferences := ← optional "ownerReferences" (listOf? OwnerReference.ofJson?) members
        resourceVersion := ← optional "resourceVersion" string? members
        selfLink := ← optional "selfLink" string? members
        uid := ← optional "uid" string? members }
  | _ => none

namespace Workspace

def Spec.ofJson? (j : Json) : Option Spec := do
  let members ← record? ["namespace", "labels"] j
  pure {
    target := ← required "namespace" string? members
    labels := ← defaulted "labels" .empty labels? members }

def Status.ofJson? (j : Json) : Option Status := do
  let members ← record? ["namespace", "conditions", "observedGeneration", "nextReconcileTime"] j
  pure {
    provided := ← optional "namespace" string? members
    conditions := ← defaulted "conditions" [] (listOf? Condition.ofJson?) members
    observedGeneration := ← optional "observedGeneration" int64? members
    nextReconcile := ← optional "nextReconcileTime" timestamp? members }

def ofJson? : Json → Option Workspace
  | .object members =>
      if eachOnce ["metadata", "spec", "status"] members then do
        pure {
          metadata := ← required "metadata" Metadata.ofJson? members
          spec := ← required "spec" Spec.ofJson? members
          status := ← optional "status" Status.ofJson? members }
      else none
  | _ => none

end Workspace

end Reconciler
