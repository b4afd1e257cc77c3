import Reconciler.Telemetry.Basic

set_option autoImplicit false

namespace Reconciler

structure Config where
  operator : String := "converge"
  maxConcurrent : UInt16 := 10
  debugValue : String := ""
  errorRequeueSeconds : UInt64 := 5
  logFilter : Option String := none
  endpoint : Option String := none
  deriving DecidableEq, Repr

namespace Config

def errorRequeue (c : Config) : Duration :=
  .ofSeconds c.errorRequeueSeconds.toNat

def telemetry (c : Config) : TelemetryConfig :=
  ⟨c.operator, c.logFilter, c.endpoint, c.debugValue⟩

def readInteger? (s : String) : Option Int :=
  match s.toList with
  | '-' :: digits => (readDigits? digits).map fun n => -n
  | '+' :: digits => (readDigits? digits).map fun n => n
  | digits => (readDigits? digits).map fun n => n
where
  readDigits? (digits : List Char) : Option Nat :=
    if digits ≠ [] ∧ digits.all Char.isDigit then
      some (digits.foldl (fun n c => n * 10 + (c.toNat - 48)) 0)
    else none

def readWord16? (s : String) : Option UInt16 :=
  (readInteger? s).bind fun n => if 0 ≤ n ∧ n < UInt16.size then some (UInt16.ofNat n.toNat) else none

def readWord64? (s : String) : Option UInt64 :=
  -- Not even as the sign of zero.
  if s.startsWith "-" then none
  else (readInteger? s).bind fun n => if n < UInt64.size then some (UInt64.ofNat n.toNat) else none

end Config

inductive Setting where
  | operator
  | maxConcurrent
  | debugValue
  | errorRequeue
  | logFilter
  | endpoint
  deriving DecidableEq, Repr

namespace Setting

def all : List Setting := [operator, maxConcurrent, debugValue, errorRequeue, logFilter, endpoint]

def option : Setting → String
  | operator => "operator-name"
  | maxConcurrent => "max-concurrent-reconciles"
  | debugValue => "debug-label-value"
  | errorRequeue => "error-requeue-secs"
  | logFilter => "log-filter"
  | endpoint => "otlp-endpoint"

def environmentName : Setting → String
  | operator => "OPERATOR_NAME"
  | maxConcurrent => "MAX_CONCURRENT_RECONCILES"
  | debugValue => "DEBUG_LABEL_VALUE"
  | errorRequeue => "ERROR_REQUEUE_SECS"
  | logFilter => "RUST_LOG"
  | endpoint => "OTEL_EXPORTER_OTLP_ENDPOINT"

def assign? (s : Setting) (value : String) (c : Config) : Option Config :=
  match s with
  | operator => some { c with operator := value }
  | maxConcurrent => (Config.readWord16? value).map fun n => { c with maxConcurrent := n }
  | debugValue => some { c with debugValue := value }
  | errorRequeue => (Config.readWord64? value).map fun n => { c with errorRequeueSeconds := n }
  | logFilter => some { c with logFilter := some value }
  | endpoint => some { c with endpoint := some value }

end Setting

end Reconciler
