import Reconciler.Error.Message
import Reconciler.Log
import Reconciler.Workspace.Basic

set_option autoImplicit false

namespace Reconciler

structure Tags where
  operator : String
  controller : String
  resource : ResourceId
  correlation : String
  deriving DecidableEq, Repr

namespace Tags

def fields (tags : Tags) : Log.Fields := [
  ("operator", .text tags.operator),
  ("controller", .text tags.controller),
  ("namespace", .text tags.resource.ns),
  ("name", .text tags.resource.name),
  ("reconcile_id", .text tags.correlation)]

end Tags

namespace Report

def target : String := "converge::report"

def note (error : Error) (tags : Tags) : Log.Note where
  level := .error
  target := target
  message := "reconcile error"
  fields := tags.fields ++ [
    ("subroutine", .text (error.subroutine?.getD "")),
    ("error", .text error.message)]

end Report

end Reconciler
