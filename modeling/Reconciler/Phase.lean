set_option autoImplicit false

namespace Reconciler

inductive Phase where
  | process
  | finalize
  deriving DecidableEq, Repr

namespace Phase

def suffix : Phase → String
  | process => "Ready"
  | finalize => "Finalize"

def noun : Phase → String
  | process => "subroutine"
  | finalize => "subroutine finalization"

def conditionType (subroutine : String) (phase : Phase) : String :=
  subroutine ++ "_" ++ phase.suffix

end Phase

end Reconciler
