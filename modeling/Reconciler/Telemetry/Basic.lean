import Reconciler.Http.Uri
import Reconciler.Telemetry.Line
import Reconciler.Text.Quoted

set_option autoImplicit false

namespace Reconciler

structure TelemetryConfig where
  operator : String
  logFilter : Option String
  endpoint : Option String
  debugValue : String
  deriving DecidableEq, Repr

inductive Signal where
  | spans
  | metrics
  deriving DecidableEq, Repr

def Signal.text : Signal → String
  | spans => "spans"
  | metrics => "metrics"

structure Telemetry where
  filter : Log.Filter
  exporting : Bool
  deriving DecidableEq, Repr

namespace Telemetry

inductive Fault where
  | filter (text : String)
  | exporter (signal : Signal)
  | installed
  deriving DecidableEq, Repr

def Fault.message (cause : String) : Fault → String
  | filter text => "invalid log filter " ++ Text.quote text ++ ": " ++ cause
  | exporter signal => "failed to build OTLP " ++ signal.text ++ " exporter: " ++ cause
  | installed => "a global tracing subscriber is already installed"

def defaultFilter : String := "info,converge=debug,kube=info,tower=warn,hyper=warn"

abbrev Environment := List (String × String)

def compressionVariables : Signal → List String
  | .spans => ["OTEL_EXPORTER_OTLP_TRACES_COMPRESSION", "OTEL_EXPORTER_OTLP_COMPRESSION"]
  | .metrics => ["OTEL_EXPORTER_OTLP_METRICS_COMPRESSION", "OTEL_EXPORTER_OTLP_COMPRESSION"]

def isBuildable (environment : Environment) (endpoint : String) (signal : Signal) : Bool :=
  Http.Uri.isValid endpoint && (compressionVariables signal).all fun name => (environment.lookup name).isNone

def unbuildable? (environment : Environment) (endpoint : String) : Option Signal :=
  [Signal.spans, .metrics].find? fun signal => !isBuildable environment endpoint signal

def silenceReports (filter : Log.Filter) : Log.Filter :=
  filter ++ [⟨Report.target, none⟩]

def install (config : TelemetryConfig) (environment : Environment) : Except Fault Telemetry :=
  match config.endpoint.bind (unbuildable? environment) with
  | some signal => .error (.exporter signal)
  | none =>
      let text := config.logFilter.getD defaultFilter
      match Log.Filter.parse? text with
      | some filter => .ok ⟨silenceReports filter, config.endpoint.isSome⟩
      | none => .error (.filter text)

def regularLine? (t : Telemetry) (record : Log.Record) : Option Json :=
  Log.regularLine? t.filter record

end Telemetry

end Reconciler
