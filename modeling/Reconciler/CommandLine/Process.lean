import Reconciler.CommandLine.Basic
import Reconciler.Crd.Basic
import Reconciler.Crd.Yaml
import Reconciler.Operator

set_option autoImplicit false

namespace Reconciler.CommandLine

inductive Start where
  | print (text : String)
  | help
  | misused (usage : Usage)
  | fail (message : String)
  | run (config : Config)
  deriving DecidableEq, Repr

def versionText : String := "converge-operator 0.1.0\n"

def crdText : String := Yaml.write Crd.document ++ "\n"

def operatorFault? (operator : String) : Option Setup.Fault :=
  let namespaces : Namespaces Unit := ⟨fun _ _ s => .done (.ok ()) s, fun _ s => .done (.ok true) s⟩
  (Operator.setup operator namespaces).fault?

def launch (cause : String) (environment : Telemetry.Environment) (cluster : Bool) (c : Config) : Start :=
  match Telemetry.install c.telemetry environment with
  | .error fault => .fail (fault.message cause)
  | .ok _ =>
      if !cluster then .fail ("Failed to infer configuration: " ++ cause)
      else
        match operatorFault? c.operator with
        | some fault => .fail (Error.configuration fault.message).message
        | none => .run c

def start (cause : String) (arguments : List String) (environment : Telemetry.Environment) (cluster : Bool) :
    Start :=
  match parse arguments environment with
  | .error .help => .help
  | .error .version => .print versionText
  | .error usage => .misused usage
  | .ok line => if line.crd then .print crdText else launch cause environment cluster line.config

namespace Start

def exitCode : Start → Option UInt32
  | print _ => some 0
  | help => some 0
  | misused _ => some 2
  | fail _ => some 1
  | run _ => none

end Start

end Reconciler.CommandLine
