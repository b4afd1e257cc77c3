import Reconciler.Error.Basic
import Reconciler.Text.Quoted

set_option autoImplicit false

namespace Reconciler

namespace ApiFailure

def summary (f : ApiFailure) : String :=
  f.message ++ ": " ++ f.reason

def detail (f : ApiFailure) : String :=
  "ErrorResponse \x7b status: " ++ Text.quote f.status ++ ", message: " ++ Text.quote f.message ++ ", reason: " ++
    Text.quote f.reason ++ ", code: " ++ toString f.code.toNat ++ " \x7d"

end ApiFailure

namespace Foreign

def message : Foreign → String
  | plain message _ => message
  | wrapping message _ _ => message

def detail : Foreign → String
  | plain _ detail => detail
  | wrapping _ detail _ => detail

def sources : Foreign → List String
  | plain _ _ => []
  | wrapping _ _ source => source.message :: source.sources

end Foreign

namespace ClientError

def message : ClientError → String
  | .api failure => "ApiError: " ++ failure.summary ++ " (" ++ failure.detail ++ ")"
  | .tlsRequired => "TLS required but no TLS stack selected"
  | .lineTooLong => "Error finding newline character"
  | .undecodable source => "Error deserializing response: " ++ source.message
  | .badRequest source => "Failed to build request: " ++ source.message
  | .other failure => failure.message

def sources : ClientError → List String
  | .api failure => [failure.summary]
  | .undecodable source => source.message :: source.sources
  | .badRequest source => source.message :: source.sources
  | .other failure => failure.sources
  | .tlsRequired => []
  | .lineTooLong => []

def detail : ClientError → String
  | .api failure => "Api(" ++ failure.detail ++ ")"
  | .tlsRequired => "TlsRequired"
  | .lineTooLong => "LinesCodecMaxLineLengthExceeded"
  | .undecodable source => "SerdeError(" ++ source.detail ++ ")"
  | .badRequest source => "BuildRequest(" ++ source.detail ++ ")"
  | .other failure => failure.detail

end ClientError

mutual
def Error.message : Error → String
  | .client source => "kubernetes error: " ++ source.message
  | .subroutine name source => "subroutine " ++ name ++ " failed: " ++ source.message
  | .configuration message => "configuration error: " ++ message
  | .cancelled => "reconcile cancelled"
  | .internal context message => "internal error [" ++ context ++ "]: " ++ message

def OperatorError.message : OperatorError → String
  | .mk cause _ _ => cause.message

def Cause.message : Cause → String
  | .text message => message
  | .client source => source.message
  | .error source => source.message
  | .foreign source => source.message
end

mutual
def Error.sources : Error → List String
  | .client source => source.message :: source.sources
  | .subroutine _ source => source.message :: source.sources
  | .configuration _ => []
  | .cancelled => []
  | .internal _ _ => []

-- The cause is what the error itself says, so what lies under it comes next.
def OperatorError.sources : OperatorError → List String
  | .mk cause _ _ => cause.sources

def Cause.sources : Cause → List String
  | .text _ => []
  | .client source => source.sources
  | .error source => source.sources
  | .foreign source => source.sources
end

def boolText (b : Bool) : String :=
  if b then "true" else "false"

mutual
def Error.detail : Error → String
  | .client source => "Kube \x7b source: " ++ source.detail ++ " \x7d"
  | .subroutine name source =>
      "Subroutine \x7b subroutine: " ++ Text.quote name ++ ", source: " ++ source.detail ++ " \x7d"
  | .configuration message => "Configuration \x7b message: " ++ Text.quote message ++ " \x7d"
  | .cancelled => "Cancelled"
  | .internal context message =>
      "Internal \x7b message: " ++ Text.quote message ++ ", context: " ++ Text.quote context ++ " \x7d"

def OperatorError.detail : OperatorError → String
  | .mk cause retry report =>
      "OperatorError \x7b source: " ++ cause.detail ++ ", retry: " ++ boolText retry ++ ", report: " ++
        boolText report ++ " \x7d"

def Cause.detail : Cause → String
  | .text message => Text.quote message
  | .client source => source.detail
  | .error source => source.detail
  | .foreign source => source.detail
end

-- What is written down about a failed step: the words of the step, without the name of the subroutine.
def Error.failureMessage : Error → String
  | .subroutine _ source => source.message
  | e => e.message

end Reconciler
