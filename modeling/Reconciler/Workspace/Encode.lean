import Reconciler.Time.Text
import Reconciler.Workspace.Basic

set_option autoImplicit false

namespace Reconciler

def Labels.toJson (labels : Labels) : Json :=
  .object (labels.entries.map fun (key, value) => (key, .string value))

def Condition.toJson (c : Condition) : Json :=
  .object [
    ("type", .string c.type),
    ("status", .string c.status.text),
    ("reason", .string c.reason),
    ("message", .string c.message),
    ("lastTransitionTime", .string c.lastTransition.render)]

def Json.ofInt64 (n : Int64) : Json := .integer n.toInt

def Json.ofStrings (texts : List String) : Json := .array (texts.map .string)

def OwnerReference.toJson (o : OwnerReference) : Json :=
  Json.ofMembers [
    ("apiVersion", some (.string o.apiVersion)),
    ("blockOwnerDeletion", o.blockOwnerDeletion.map .bool),
    ("controller", o.controller.map .bool),
    ("kind", some (.string o.kind)),
    ("name", some (.string o.name)),
    ("uid", some (.string o.uid))]

def Json.ofWholeSeconds (t : Timestamp) : Json := .string t.renderSeconds

def ManagedFields.toJson (m : ManagedFields) : Json :=
  Json.ofMembers [
    ("apiVersion", m.apiVersion.map .string),
    ("fieldsType", m.fieldsType.map .string),
    ("fieldsV1", m.fields),
    ("manager", m.manager.map .string),
    ("operation", m.operation.map .string),
    ("subresource", m.subresource.map .string),
    ("time", m.time.map .ofWholeSeconds)]

def Metadata.toJson (m : Metadata) : Json :=
  Json.ofMembers [
    ("annotations", m.annotations.map (·.toJson)),
    ("creationTimestamp", m.creationTimestamp.map .ofWholeSeconds),
    ("deletionGracePeriodSeconds", m.deletionGracePeriodSeconds.map .ofInt64),
    ("deletionTimestamp", m.deletionTimestamp.map .ofWholeSeconds),
    ("finalizers", m.finalizers.map .ofStrings),
    ("generateName", m.generateName.map .string),
    ("generation", m.generation.map .ofInt64),
    ("labels", m.labels.map (·.toJson)),
    ("managedFields", m.managedFields.map fun l => .array (l.map (·.toJson))),
    ("name", m.name.map .string),
    ("namespace", m.ns.map .string),
    ("ownerReferences", m.ownerReferences.map fun l => .array (l.map (·.toJson))),
    ("resourceVersion", m.resourceVersion.map .string),
    ("selfLink", m.selfLink.map .string),
    ("uid", m.uid.map .string)]

namespace Workspace

def apiVersion : String := "converge.dev/v1alpha1"

def kind : String := "Workspace"

def Spec.toJson (s : Spec) : Json :=
  Json.ofMembers [
    ("namespace", some (.string s.target)),
    ("labels", if s.labels.isEmpty then none else some s.labels.toJson)]

def Status.toJson (s : Status) : Json :=
  Json.ofMembers [
    ("namespace", s.provided.map .string),
    ("conditions", if s.conditions.isEmpty then none else some (.array (s.conditions.map (·.toJson)))),
    ("observedGeneration", s.observedGeneration.map .ofInt64),
    ("nextReconcileTime", s.nextReconcile.map (.string ·.render))]

def toJson (w : Workspace) : Json :=
  Json.ofMembers [
    ("apiVersion", some (.string apiVersion)),
    ("kind", some (.string kind)),
    ("metadata", some w.metadata.toJson),
    ("spec", some w.spec.toJson),
    ("status", w.status.map (·.toJson))]

end Workspace

end Reconciler
