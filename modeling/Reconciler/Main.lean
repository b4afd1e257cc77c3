import Reconciler.CommandLine.Process

set_option autoImplicit false

namespace Reconciler.CommandLine

def refusal : String := "refused"

def usageText : String :=
  "Usage: converge-operator [--crd] " ++
    String.join (Setting.all.map fun s => "[--" ++ s.option ++ " VALUE] ") ++ "[--help] [--version]"

def watchedVariables : List String :=
  Setting.all.map (·.environmentName) ++
    [Signal.spans, .metrics].flatMap Telemetry.compressionVariables

def readEnvironment : IO Telemetry.Environment :=
  watchedVariables.filterMapM fun name => do
    return (← IO.getEnv name).map (name, ·)

end Reconciler.CommandLine

def main (arguments : List String) : IO UInt32 := do
  let environment ← Reconciler.CommandLine.readEnvironment
  match Reconciler.CommandLine.start Reconciler.CommandLine.refusal arguments environment false with
  | .print text =>
      IO.print text
      return 0
  | .help =>
      IO.println Reconciler.CommandLine.usageText
      return 0
  | .misused _ =>
      IO.eprintln Reconciler.CommandLine.usageText
      return 2
  | .fail message =>
      IO.eprintln ("Error: " ++ message)
      return 1
  | .run _ => return 0
