set_option autoImplicit false

namespace Reconciler.Log

inductive Level where
  | error
  | warn
  | info
  | debug
  | trace
  deriving DecidableEq, Repr

namespace Level

def text : Level → String
  | error => "ERROR"
  | warn => "WARN"
  | info => "INFO"
  | debug => "DEBUG"
  | trace => "TRACE"

def verbosity : Level → Nat
  | error => 1
  | warn => 2
  | info => 3
  | debug => 4
  | trace => 5

def ofText? (s : String) : Option Level :=
  [error, warn, info, debug, trace].find? (·.text = s)

end Level

inductive Value where
  | text (value : String)
  | number (value : Int)
  | flag (value : Bool)
  deriving DecidableEq, Repr

abbrev Fields := List (String × Value)

structure Note where
  level : Level
  target : String
  message : String
  fields : Fields := []
  deriving DecidableEq, Repr

structure Span where
  name : String
  target : String
  fields : Fields
  deriving DecidableEq, Repr

structure Record where
  note : Note
  spans : List Span
  deriving DecidableEq, Repr

end Reconciler.Log
