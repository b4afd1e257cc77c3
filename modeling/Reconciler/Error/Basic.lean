set_option autoImplicit false

namespace Reconciler

structure ApiFailure where
  status : String
  message : String
  reason : String
  code : UInt16
  deriving DecidableEq, Repr

-- An error that another library or an author brings along, with its own words and whatever lies under it.
inductive Foreign where
  | plain (message detail : String)
  | wrapping (message detail : String) (source : Foreign)
  deriving DecidableEq, Repr

inductive ClientError where
  | api (failure : ApiFailure)
  | tlsRequired
  | lineTooLong
  -- The answer is not of the expected form.
  | undecodable (source : Foreign)
  -- The request could not be put together.
  | badRequest (source : Foreign)
  | other (failure : Foreign)
  deriving DecidableEq, Repr

mutual
inductive Error where
  | client (source : ClientError)
  | subroutine (name : String) (source : OperatorError)
  | configuration (message : String)
  | cancelled
  | internal (context message : String)
  deriving DecidableEq, Repr

inductive OperatorError where
  | mk (cause : Cause) (retry report : Bool)
  deriving DecidableEq, Repr

inductive Cause where
  | text (message : String)
  | client (source : ClientError)
  | error (source : Error)
  | foreign (source : Foreign)
  deriving DecidableEq, Repr
end

namespace ClientError

def code? : ClientError → Option UInt16
  | .api failure => some failure.code
  | _ => none

end ClientError

namespace OperatorError

def cause : OperatorError → Cause
  | mk cause _ _ => cause

def retry : OperatorError → Bool
  | mk _ retry _ => retry

def report : OperatorError → Bool
  | mk _ _ report => report

def retryable (cause : Cause) : OperatorError := mk cause true true

def permanent (cause : Cause) : OperatorError := mk cause false true

def reported (e : OperatorError) : OperatorError := mk e.cause e.retry true

def unreported (e : OperatorError) : OperatorError := mk e.cause e.retry false

end OperatorError

namespace Error

def unknownContext : String := "unknown"

def apiCode? : Error → Option UInt16
  | .client source => source.code?
  | _ => none

def isConflict (e : Error) : Bool := e.apiCode? == some 409

def isNotFound (e : Error) : Bool := e.apiCode? == some 404

def isRetryable : Error → Bool
  | .client _ => true
  | .subroutine _ source => source.retry
  | .configuration _ => false
  | .cancelled => false
  | .internal _ _ => true

def shouldReport : Error → Bool
  | .client source => !(client source).isConflict
  | .subroutine _ source => source.report
  | .configuration _ => true
  | .cancelled => false
  | .internal _ _ => true

def subroutine? : Error → Option String
  | .subroutine name _ => some name
  | _ => none

def toOperatorError (e : Error) : OperatorError :=
  .mk (.error e) e.isRetryable e.shouldReport

end Error

end Reconciler
