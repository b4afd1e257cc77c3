import Reconciler.Json.Basic
import Reconciler.Text.Quoted

set_option autoImplicit false

namespace Reconciler.Json

def escaped (c : Char) : List Char :=
  if c = '"' then ['\\', '"']
  else if c = '\\' then ['\\', '\\']
  else if c = '\n' then ['\\', 'n']
  else if c = '\r' then ['\\', 'r']
  else if c = '\t' then ['\\', 't']
  else if c.toNat = 8 then ['\\', 'b']
  else if c.toNat = 12 then ['\\', 'f']
  else if c.toNat < 0x20 then
    ['\\', 'u', '0', '0', Text.hexDigit (c.toNat / 16), Text.hexDigit (c.toNat % 16)]
  else [c]

def writeString (s : String) : String :=
  String.ofList ('"' :: s.toList.flatMap escaped ++ ['"'])

def stripZeros : Nat → Nat → Int → Nat × Int
  | 0, digits, exponent => (digits, exponent)
  | fuel + 1, digits, exponent =>
      if digits % 10 = 0 && digits ≠ 0 then stripZeros fuel (digits / 10) (exponent + 1) else (digits, exponent)

def zeros (n : Nat) : String :=
  String.ofList (List.replicate n '0')

def writeDecimal (negative : Bool) (digits : Nat) (exponent : Int) : String :=
  let (digits, exponent) := stripZeros (digits.log2 + 1) digits exponent
  let text := toString digits
  let point := text.length + exponent
  let body :=
    if digits = 0 then "0.0"
    else if 0 ≤ exponent && point ≤ 16 then text ++ zeros exponent.toNat ++ ".0"
    else if 0 < point && point ≤ 16 then
      String.ofList (text.toList.take point.toNat) ++ "." ++ String.ofList (text.toList.drop point.toNat)
    else if -5 < point && point ≤ 0 then "0." ++ zeros (-point).toNat ++ text
    else
      let front := String.ofList (text.toList.take 1)
      let back := String.ofList (text.toList.drop 1)
      (if back.isEmpty then front else front ++ "." ++ back) ++ "e" ++ toString (point - 1)
  if negative then "-" ++ body else body

mutual
def writePieces : Json → List String → List String
  | .null, rest => "null" :: rest
  | .bool true, rest => "true" :: rest
  | .bool false, rest => "false" :: rest
  | .integer n, rest => toString n :: rest
  | .decimal negative digits exponent, rest => writeDecimal negative digits exponent :: rest
  | .string s, rest => writeString s :: rest
  | .array [], rest => "[]" :: rest
  | .array (item :: items), rest => "[" :: writePieces item (writeItems items rest)
  | .object [], rest => "\x7b\x7d" :: rest
  | .object ((name, value) :: members), rest =>
      "\x7b" :: writeString name :: ":" :: writePieces value (writeMembers members rest)

def writeItems : List Json → List String → List String
  | [], rest => "]" :: rest
  | item :: items, rest => "," :: writePieces item (writeItems items rest)

def writeMembers : List (String × Json) → List String → List String
  | [], rest => "\x7d" :: rest
  | (name, value) :: members, rest =>
      "," :: writeString name :: ":" :: writePieces value (writeMembers members rest)
end

def write (value : Json) : String :=
  String.join (writePieces value [])

end Reconciler.Json
