import Reconciler.Error.Message

set_option autoImplicit false

namespace Reconciler

inductive Layer where
  | error (e : Error)
  | operator (e : OperatorError)
  | client (e : ClientError)
  | api (failure : ApiFailure)
  | foreign (e : Foreign)

def Foreign.source? : Foreign → Option Layer
  | .plain _ _ => none
  | .wrapping _ _ source => some (.foreign source)

def ClientError.source? : ClientError → Option Layer
  | .api failure => some (.api failure)
  | .undecodable source => some (.foreign source)
  | .badRequest source => some (.foreign source)
  | .other failure => failure.source?
  | .tlsRequired => none
  | .lineTooLong => none

def Error.source? : Error → Option Layer
  | .client source => some (.client source)
  | .subroutine _ source => some (.operator source)
  | _ => none

def Cause.source? : Cause → Option Layer
  | .text _ => none
  | .client source => source.source?
  | .error source => source.source?
  | .foreign source => source.source?

namespace Layer

def message : Layer → String
  | error e => e.message
  | operator e => e.message
  | client e => e.message
  | api failure => failure.summary
  | foreign e => e.message

def source? : Layer → Option Layer
  | error e => e.source?
  -- A failed step says what its cause says, so that the cause itself is passed over.
  | operator e => e.cause.source?
  | client e => e.source?
  | api _ => none
  | foreign e => e.source?

-- What is read from there on, each error leading to the one right under it.
inductive Reads : Option Layer → List String → Prop where
  | ended : Reads none []
  | next {layer texts} : Reads layer.source? texts → Reads (some layer) (layer.message :: texts)

theorem Reads.unique {start : Option Layer} {texts texts' : List String} (reads : Reads start texts)
    (reads' : Reads start texts') : texts = texts' := by
  induction reads generalizing texts' with
  | ended =>
      cases reads'
      rfl
  | next _ ih =>
      cases reads' with
      | next rest => rw [ih rest]

theorem reads_foreign (e : Foreign) : Reads e.source? e.sources := by
  induction e with
  | plain message detail => exact .ended
  | wrapping message detail source ih => exact .next ih

theorem reads_client (e : ClientError) : Reads e.source? e.sources := by
  cases e with
  | api failure => exact .next .ended
  | undecodable source => exact .next (reads_foreign source)
  | badRequest source => exact .next (reads_foreign source)
  | other failure => exact reads_foreign failure
  | tlsRequired | lineTooLong => exact .ended

-- The recursion is that of the errors in each other, and goes down one layer where a cause is an error again.
mutual
theorem reads_error (e : Error) : Reads e.source? e.sources := by
  cases e with
  | client source => exact .next (reads_client source)
  | subroutine name source => exact .next (reads_operator source)
  | configuration | cancelled | internal => exact .ended

theorem reads_operator (e : OperatorError) : Reads e.cause.source? e.sources := by
  cases e with
  | mk cause retry report => exact reads_cause cause

theorem reads_cause (cause : Cause) : Reads cause.source? cause.sources := by
  cases cause with
  | text message => exact .ended
  | client source => exact reads_client source
  | error source => exact reads_error source
  | foreign source => exact reads_foreign source
end

theorem reads_iff (e : Error) (texts : List String) :
    Reads (some (.error e)) texts ↔ texts = e.message :: e.sources := by
  have reads : Reads (some (.error e)) (e.message :: e.sources) := .next (reads_error e)
  constructor
  · intro reads'
    exact reads'.unique reads
  · rintro rfl
    exact reads

end Layer

namespace Error

def wrap (names : List String) (e : Error) : Error :=
  names.foldr (fun name e => .subroutine name e.toOperatorError) e

-- Before the texts, one for each name, which puts the name before the text that comes next.
def announce (names texts : List String) : List String :=
  names.foldr (fun name rest => ("subroutine " ++ name ++ " failed: " ++ rest.headD "") :: rest) texts

theorem isRetryable_wrap (names : List String) (e : Error) : (e.wrap names).isRetryable = e.isRetryable := by
  induction names with
  | nil => rfl
  | cons name names ih => exact ih

theorem shouldReport_wrap (names : List String) (e : Error) : (e.wrap names).shouldReport = e.shouldReport := by
  induction names with
  | nil => rfl
  | cons name names ih => exact ih

theorem announce_cons (name : String) (names texts : List String) :
    announce (name :: names) texts =
      ("subroutine " ++ name ++ " failed: " ++ (announce names texts).headD "") :: announce names texts := rfl

theorem messages_wrap (names : List String) (e : Error) :
    (e.wrap names).message :: (e.wrap names).sources = announce names (e.message :: e.sources) := by
  induction names with
  | nil => rfl
  | cons name names ih =>
      -- The failed step right under the error has the message of the error that it was made from.
      rw [announce_cons, ← ih]
      rfl

/-- An error that is wrapped up as the failure of steps is as much worth another try, and as much to be reported, as it
is by itself, and it counts neither as a conflict nor as an absence. It goes by the outermost name. What is read from it
on is each name before the text of the next layer, from the outside in, and then what is read of the error itself. -/
theorem wrapped_in_layers (name : String) (names : List String) (e : Error) :
    (e.wrap (name :: names)).isRetryable = e.isRetryable ∧
      (e.wrap (name :: names)).shouldReport = e.shouldReport ∧
      (e.wrap (name :: names)).isConflict = false ∧
      (e.wrap (name :: names)).isNotFound = false ∧
      (e.wrap (name :: names)).subroutine? = some name ∧
      (∀ texts, Layer.Reads (some (.error e)) texts ↔ texts = e.message :: e.sources) ∧
      ∀ texts, Layer.Reads (some (.error (e.wrap (name :: names)))) texts ↔
        texts = announce (name :: names) (e.message :: e.sources) := by
  refine ⟨isRetryable_wrap _ e, shouldReport_wrap _ e, rfl, rfl, rfl, Layer.reads_iff e, fun texts => ?_⟩
  rw [Layer.reads_iff, messages_wrap]

example : announce ["volumes", "dns"] ["reconcile cancelled"] =
    ["subroutine volumes failed: subroutine dns failed: reconcile cancelled",
      "subroutine dns failed: reconcile cancelled", "reconcile cancelled"] := by
  decide

end Error

end Reconciler
