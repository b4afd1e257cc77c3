import Reconciler.CommandLine.Config

set_option autoImplicit false

namespace Reconciler

structure CommandLine where
  crd : Bool
  config : Config
  deriving DecidableEq, Repr

namespace CommandLine

inductive Usage where
  | unknownArgument
  | argumentConflict
  | invalidValue
  | valueValidation
  | tooManyValues
  | help
  | version
  deriving DecidableEq, Repr

inductive Word where
  | setting (s : Setting)
  | crd
  | help
  | version
  deriving DecidableEq, Repr

def option? (name : String) : Option Word :=
  if name = "crd" then some .crd
  else if name = "help" then some .help
  else if name = "version" then some .version
  else (Setting.all.find? (·.option = name)).map .setting

structure Reading where
  given : List Setting := []
  config : Config := {}
  crd : Bool := false
  pending : Option (Setting × Option String) := none

namespace Reading

def take (r : Reading) (s : Setting) : Option String → Except Usage Reading
  | none => .error .invalidValue
  | some value =>
      if r.given.contains s then .error .argumentConflict
      else
        match s.assign? value r.config with
        | some config => .ok { r with given := s :: r.given, config := config }
        | none => .error .valueValidation

def settle (r : Reading) : Except Usage Reading :=
  match r.pending with
  | some (s, value) => take { r with pending := none } s value
  | none => .ok r

def long (r : Reading) (name : String) (value : Option String) : Except Usage Reading :=
  match option? name, value with
  -- An unknown option is a fault before the value of the option in front of it is.
  | none, _ => .error .unknownArgument
  | some (.setting s), some value => r.settle.bind fun r => r.take s (some value)
  | some (.setting s), none => r.settle.map fun r => { r with pending := some (s, none) }
  | some _, some _ => .error .tooManyValues
  | some .crd, none =>
      r.settle.bind fun r => if r.crd then .error .argumentConflict else .ok { r with crd := true }
  | some .help, none => r.settle.bind fun _ => .error .help
  | some .version, none => r.settle.bind fun _ => .error .version

def short (r : Reading) : Char → Except Usage Reading
  | 'h' => r.settle.bind fun _ => .error .help
  | 'V' => r.settle.bind fun _ => .error .version
  | _ => .error .unknownArgument

def plain (r : Reading) (word : String) : Except Usage Reading :=
  match r.pending with
  | some (s, none) => .ok { r with pending := some (s, some word) }
  | _ => .error .unknownArgument

def step (r : Reading) (word : String) : Except Usage Reading :=
  match word.toList with
  | '-' :: '-' :: rest =>
      let name := rest.takeWhile (· ≠ '=')
      match rest.dropWhile (· ≠ '=') with
      | _ :: value => r.long (String.ofList name) (some (String.ofList value))
      | [] => r.long (String.ofList name) none
  | '-' :: c :: _ => r.short c
  | _ => r.plain word

def words (r : Reading) : List String → Except Usage Reading
  | [] => r.settle
  | "--" :: [] => r.settle
  | "--" :: _ :: _ => .error .unknownArgument
  | word :: rest =>
      match r.step word with
      | .ok r => r.words rest
      | .error usage => .error usage

def fill (environment : Telemetry.Environment) (r : Reading) (s : Setting) : Except Usage Reading :=
  match environment.lookup s.environmentName with
  | some value => if r.given.contains s then .ok r else r.take s (some value)
  | none => .ok r

end Reading

def parse (arguments : List String) (environment : Telemetry.Environment) : Except Usage CommandLine := do
  let r ← ({} : Reading).words arguments
  let r ← Setting.all.foldlM (Reading.fill environment) r
  pure ⟨r.crd, r.config⟩

end CommandLine

end Reconciler
