import Reconciler.Json.Basic

set_option autoImplicit false

namespace Reconciler.Crd

abbrev Members := List (String × Json)

def texts (values : List String) : Json := .array (values.map .string)

def plainType (name : String) : Json := .object [("type", .string name)]

def described (description type : String) (more : Members) : Json :=
  .object (("description", .string description) :: more ++ [("type", .string type)])

def optionalField (description type : String) (format : Option String) : Json :=
  described description type
    ((format.map fun f => ("format", Json.string f)).toList ++ [("nullable", .bool true)])

def condition : Json :=
  described
    ("Kubernetes-style condition for status reporting\n\n`last_transition_time` moves only when `status` changes; " ++
      "see the condition ledger in `converge-lifecycle` for the upsert rules.")
    "object" [
    ("properties", .object [
      ("lastTransitionTime", described "Last time the condition transitioned" "string"
        [("format", .string "date-time")]),
      ("message", described "Human-readable message" "string" []),
      ("reason", described "Machine-readable reason for the condition" "string" []),
      ("status", described "Status of the condition (True, False, Unknown)" "string"
        [("enum", texts ["True", "False", "Unknown"])]),
      ("type", described "Type of condition (e.g., Ready, dns_Ready)" "string" [])]),
    ("required", texts ["lastTransitionTime", "message", "reason", "status", "type"])]

def spec : Json :=
  described "A namespace provisioned and owned on behalf of a team" "object" [
    ("properties", .object [
      ("labels", .object [
        ("additionalProperties", plainType "string"),
        ("description", .string "Extra labels applied to the namespace"),
        ("type", .string "object")]),
      ("namespace", described "Namespace to create" "string" [])]),
    ("required", texts ["namespace"])]

def status : Json :=
  described "Workspace status" "object" [
    ("nullable", .bool true),
    ("properties", .object [
      ("conditions", described "Lifecycle conditions" "array" [("items", condition)]),
      ("namespace", optionalField "Namespace that was provisioned" "string" none),
      ("nextReconcileTime", optionalField "Earliest time of the next routine reconcile" "string" (some "date-time")),
      ("observedGeneration",
        optionalField "Generation observed by the last successful reconcile" "integer" (some "int64"))])]

def schema : Json :=
  .object [
    ("description", .string "Auto-generated derived type for WorkspaceSpec via `CustomResource`"),
    ("properties", .object [("spec", spec), ("status", status)]),
    ("required", texts ["spec"]),
    ("title", .string "Workspace"),
    ("type", .string "object")]

def column (path name : String) : Json :=
  .object [("jsonPath", .string path), ("name", .string name), ("type", .string "string")]

def version : Json :=
  .object [
    ("additionalPrinterColumns", .array [
      column ".spec.namespace" "Namespace",
      column ".status.conditions[?(@.type==\"Ready\")].status" "Ready"]),
    ("name", .string "v1alpha1"),
    ("schema", .object [("openAPIV3Schema", schema)]),
    ("served", .bool true),
    ("storage", .bool true),
    ("subresources", .object [("status", .object [])])]

def names : Json :=
  .object [
    ("categories", .array []),
    ("kind", .string "Workspace"),
    ("plural", .string "workspaces"),
    ("shortNames", texts ["ws"]),
    ("singular", .string "workspace")]

def document : Json :=
  .object [
    ("apiVersion", .string "apiextensions.k8s.io/v1"),
    ("kind", .string "CustomResourceDefinition"),
    ("metadata", .object [("name", .string "workspaces.converge.dev")]),
    ("spec", .object [
      ("group", .string "converge.dev"),
      ("names", names),
      ("scope", .string "Namespaced"),
      ("versions", .array [version])])]

end Reconciler.Crd
