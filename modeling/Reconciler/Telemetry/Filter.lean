import Reconciler.Log
import Reconciler.Text.Blank

set_option autoImplicit false

namespace Reconciler.Log

structure Directive where
  target : String
  level : Option Level
  deriving DecidableEq, Repr

abbrev Filter := List Directive

namespace Filter

def number? (s : String) : Option Nat :=
  let digits := match s.toList with
    | '+' :: rest => rest
    | cs => cs
  if digits ≠ [] ∧ digits.all Char.isDigit then
    some (digits.foldl (fun n c => n * 10 + (c.toNat - 48)) 0)
  else none

def level? (s : String) : Option (Option Level) :=
  match number? s with
  | some 0 => some none
  | some n => ([Level.error, .warn, .info, .debug, .trace].find? (·.verbosity = n)).map some
  | none => if s.toUpper = "OFF" then some none else (Level.ofText? s.toUpper).map some

def levelOrAll? (s : String) : Option (Option Level) :=
  if s = "" then some (some .trace) else level? s

def startsTarget (c : Char) : Bool :=
  c.isAlphanum || c = '-' || c = ':' || c = '_' || 0x80 ≤ c.toNat

def selectsSpans (cs : List Char) : Bool :=
  (cs.takeWhile (· ≠ '=')).contains '['

def directive? (part : List Char) : Option Directive :=
  match Text.trimEnd (Text.trimStart part) with
  | [] => none
  | first :: more =>
      if !startsTarget first || selectsSpans (first :: more) then none
      else if part.contains '=' then
        -- Counted without the blanks in front, but cut with them: blanks shift both ends.
        let length := ((first :: more).takeWhile (· ≠ '=')).length
        (levelOrAll? (String.ofList (part.drop (length + 1)))).map fun level =>
          ⟨String.ofList (part.take length), level⟩
      else
        match levelOrAll? (String.ofList part) with
        | some level => some ⟨"", level⟩
        | none => some ⟨String.ofList part, some .trace⟩

def parts (cs : List Char) : List (List Char) :=
  (cs.splitOn ',').filter (· ≠ [])

def parse? (s : String) : Option Filter :=
  (parts s.toList).mapM directive?

def directiveFor? (target : String) : Filter → Option Directive
  | [] => none
  | d :: rest =>
      match directiveFor? target rest with
      | some later =>
          if target.startsWith d.target && later.target.length < d.target.length then some d else some later
      | none => if target.startsWith d.target then some d else none

def allows (filter : Filter) (target : String) (level : Level) : Bool :=
  match directiveFor? target filter with
  | some ⟨_, some most⟩ => level.verbosity ≤ most.verbosity
  | _ => false

end Filter

end Reconciler.Log
