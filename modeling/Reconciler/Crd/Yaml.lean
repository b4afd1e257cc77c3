import Reconciler.Json.Basic

set_option autoImplicit false

namespace Reconciler.Yaml

def reserved : List String :=
  ["true", "True", "TRUE", "false", "False", "FALSE", "null", "Null", "NULL", "~", "yes", "Yes", "YES", "no", "No",
    "NO", "on", "On", "ON", "off", "Off", "OFF", "y", "Y", "n", "N", ""]

def indicators : List Char :=
  ['-', '?', ':', ',', '[', ']', '\x7b', '\x7d', '#', '&', '*', '!', '|', '>', '\'', '"', '%', '@', '\x60', ' ']

def hasMark : List Char → Bool
  | ':' :: ' ' :: _ => true
  | ' ' :: '#' :: _ => true
  | [':'] => true
  | [' '] => true
  | _ :: rest => hasMark rest
  | [] => false

def isPlain (s : String) : Bool :=
  !reserved.contains s && !hasMark s.toList &&
    match s.toList with
    | c :: _ => !indicators.contains c && !c.isDigit
    | [] => false

def singleQuoted (s : String) : String :=
  String.ofList ('\'' :: s.toList.flatMap (fun c => if c = '\'' then ['\'', '\''] else [c]) ++ ['\''])

def scalarText (s : String) : String :=
  if isPlain s then s else singleQuoted s

def indent (line : String) : String :=
  if line = "" then "" else "  " ++ line

def dashed : List String → List String
  | [] => ["-"]
  | first :: rest => ("- " ++ first) :: rest.map indent

def decimalText (negative : Bool) (digits : Nat) (exponent : Int) : String :=
  (if negative then "-" else "") ++ toString digits ++ "e" ++ toString exponent

mutual
def lines : Json → List String
  | .null => ["null"]
  | .bool true => ["true"]
  | .bool false => ["false"]
  | .integer n => [toString n]
  | .decimal negative digits exponent => [decimalText negative digits exponent]
  | .string s => if s.toList.contains '\n' then "|-" :: (s.splitOn "\n").map indent else [scalarText s]
  | .array [] => ["[]"]
  | .array (item :: rest) => dashed (lines item) ++ itemLines rest
  | .object [] => ["\x7b\x7d"]
  | .object (member :: rest) => memberLines (member :: rest)

def itemLines : List Json → List String
  | [] => []
  | item :: rest => dashed (lines item) ++ itemLines rest

def memberLines : List (String × Json) → List String
  | [] => []
  | (name, value) :: rest =>
      let inner := lines value
      let own := match value with
        | .object (_ :: _) => (scalarText name ++ ":") :: inner.map indent
        | .array (_ :: _) => (scalarText name ++ ":") :: inner
        | _ =>
            match inner with
            | first :: more => (scalarText name ++ ": " ++ first) :: more
            | [] => [scalarText name ++ ":"]
      own ++ memberLines rest
end

def write (value : Json) : String :=
  String.join ((lines value).map (· ++ "\n"))

end Reconciler.Yaml
