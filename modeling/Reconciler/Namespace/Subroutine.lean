import Reconciler.Subroutine
import Reconciler.Text.Blank

set_option autoImplicit false

namespace Reconciler

structure Namespaces (σ : Type) where
  apply : (name : String) → Labels → σ → Call σ (Except ClientError Unit)
  delete : (name : String) → σ → Call σ (Except ClientError Bool)

namespace Namespaces

def target : String := "converge_operator::namespace"

def finalizer : Finalizer.Token := "converge.dev/namespace"

def workspaceLabel : String := "converge.dev/workspace"

def labels (w : Workspace) : Labels :=
  w.spec.labels.insert workspaceLabel (w.id.ns ++ "." ++ w.id.name)

def patience : Duration := .ofSeconds 5

def note (level : Log.Level) (message name : String) : Log.Note where
  level := level
  target := target
  message := message
  fields := [("namespace", .text name)]

variable {σ : Type}

def process (namespaces : Namespaces σ) (w : Workspace) (state : σ) : Call σ StepAnswer :=
  let name := Text.trim w.spec.target
  if name = "" then
    .done { workspace := w, result := .error (.permanent (.text "spec.namespace must not be empty")) } state
  else
    (namespaces.apply name (labels w) state).map fun
      | .ok () => {
          workspace := w.modifyStatus fun s => { s with provided := some name }
          result := .ok .done
          notes := [note .debug "namespace applied" name] }
      | .error error => { workspace := w, result := .error (.retryable (.client error)) }

def finalize (namespaces : Namespaces σ) (w : Workspace) (state : σ) : Call σ StepAnswer :=
  -- The namespace that was provided goes, even if another is asked for by now.
  match w.currentStatus.provided with
  | none => .done { workspace := w, result := .ok .done } state
  | some name =>
      (namespaces.delete name state).map fun
        | .ok true => {
            workspace := w
            result := .ok .done
            notes := [note .info "namespace deleted" name] }
        | .ok false => {
            workspace := w
            result := .ok (.requeueAfter patience)
            notes := [note .debug "namespace still terminating" name] }
        | .error error => { workspace := w, result := .error (.retryable (.client error)) }

def subroutine (namespaces : Namespaces σ) : Subroutine σ where
  name := "namespace"
  finalizers := [finalizer]
  process := process namespaces
  finalize := finalize namespaces

end Namespaces

end Reconciler
