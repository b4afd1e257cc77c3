import Reconciler.Json.Basic

set_option autoImplicit false

namespace Reconciler.Json

def isSpace (c : Char) : Bool :=
  c = ' ' || c = '\n' || c = '\t' || c = '\r'

def skipSpace (cs : List Char) : List Char :=
  cs.dropWhile isSpace

def digitValue (c : Char) : Nat :=
  c.toNat - 48

def takeDigits : List Char → Nat → Nat → Nat × Nat × List Char
  | [], value, count => (value, count, [])
  | c :: rest, value, count =>
      if c.isDigit then takeDigits rest (value * 10 + digitValue c) (count + 1) else (value, count, c :: rest)

def hexValue? (c : Char) : Option Nat :=
  if c.isDigit then some (digitValue c)
  else if 'a' ≤ c && c ≤ 'f' then some (c.toNat - 87)
  else if 'A' ≤ c && c ≤ 'F' then some (c.toNat - 55)
  else none

def hexQuad? : List Char → Option (Nat × List Char)
  | a :: b :: c :: d :: rest => do
      let a ← hexValue? a
      let b ← hexValue? b
      let c ← hexValue? c
      let d ← hexValue? d
      pure (((a * 16 + b) * 16 + c) * 16 + d, rest)
  | _ => none

-- A character above U+FFFF is written as two numbers; half of such a pair alone is refused.
def unicodeEscape? (cs : List Char) : Option (Char × List Char) := do
  let (first, rest) ← hexQuad? cs
  if 0xd800 ≤ first && first < 0xdc00 then
    match rest with
    | '\\' :: 'u' :: rest => do
        let (second, rest) ← hexQuad? rest
        if 0xdc00 ≤ second && second < 0xe000 then
          pure (Char.ofNat (0x10000 + (first - 0xd800) * 0x400 + (second - 0xdc00)), rest)
        else none
    | _ => none
  else if 0xdc00 ≤ first && first < 0xe000 then none
  else pure (Char.ofNat first, rest)

def simpleEscape? : Char → Option Char
  | '"' => some '"'
  | '\\' => some '\\'
  | '/' => some '/'
  | 'b' => some '\x08'
  | 'f' => some '\x0c'
  | 'n' => some '\n'
  | 'r' => some '\r'
  | 't' => some '\t'
  | _ => none

-- The rest of a string after its opening quote; `done` holds what was read, last first.
def readString? : Nat → List Char → List Char → Option (String × List Char)
  | 0, _, _ => none
  | _ + 1, [], _ => none
  | fuel + 1, c :: rest, done =>
      if c = '"' then some (String.ofList done.reverse, rest)
      else if c = '\\' then
        match rest with
        | 'u' :: rest =>
            match unicodeEscape? rest with
            | some (e, rest) => readString? fuel rest (e :: done)
            | none => none
        | e :: rest =>
            match simpleEscape? e with
            | some e => readString? fuel rest (e :: done)
            | none => none
        | [] => none
      else if c.toNat < 0x20 then none
      else readString? fuel rest (c :: done)

def readExponent? : List Char → Option (Option Int × List Char)
  | c :: rest =>
      if c = 'e' || c = 'E' then
        let (negative, rest) :=
          match rest with
          | '-' :: rest => (true, rest)
          | '+' :: rest => (false, rest)
          | rest => (false, rest)
        let (value, count, rest) := takeDigits rest 0 0
        if count = 0 then none else some (some (if negative then -value else value), rest)
      else some (none, c :: rest)
  | [] => some (none, [])

def readFraction? : List Char → Option (Option (Nat × Nat) × List Char)
  | '.' :: rest =>
      let (value, count, rest) := takeDigits rest 0 0
      if count = 0 then none else some (some (value, count), rest)
  | rest => some (none, rest)

def isWord64 (n : Int) : Bool :=
  -9223372036854775808 ≤ n && n ≤ 18446744073709551615

def numberOf (negative : Bool) (whole : Nat) (fraction : Option (Nat × Nat)) (exponent : Option Int) : Json :=
  match fraction, exponent with
  | none, none =>
      let value : Int := if negative then -whole else whole
      -- A negative zero is no integer.
      if (negative && whole == 0) || !isWord64 value then .decimal negative whole 0 else .integer value
  | fraction, exponent =>
      let (part, count) := fraction.getD (0, 0)
      .decimal negative (whole * Nat.pow 10 count + part) (exponent.getD 0 - count)

def readNumber? (cs : List Char) : Option (Json × List Char) := do
  let (negative, cs) :=
    match cs with
    | '-' :: rest => (true, rest)
    | cs => (false, cs)
  let (whole, count, rest) := takeDigits cs 0 0
  if count = 0 || (count > 1 && cs.head? == some '0') then none
  else do
    let (fraction, rest) ← readFraction? rest
    let (exponent, rest) ← readExponent? rest
    pure (numberOf negative whole fraction exponent, rest)

def readWord? (word : List Char) (value : Json) (cs : List Char) : Option (Json × List Char) :=
  if word.isPrefixOf cs then some (value, cs.drop word.length) else none

mutual
def readValue? : Nat → List Char → Option (Json × List Char)
  | 0, _ => none
  | fuel + 1, cs =>
      match skipSpace cs with
      | '"' :: rest =>
          match readString? (rest.length + 1) rest [] with
          | some (s, rest) => some (.string s, rest)
          | none => none
      | '[' :: rest =>
          match skipSpace rest with
          | ']' :: rest => some (.array [], rest)
          | rest => readItems? fuel rest []
      | '\x7b' :: rest =>
          match skipSpace rest with
          | '\x7d' :: rest => some (.object [], rest)
          | rest => readMembers? fuel rest []
      | 't' :: rest => readWord? ['r', 'u', 'e'] (.bool true) rest
      | 'f' :: rest => readWord? ['a', 'l', 's', 'e'] (.bool false) rest
      | 'n' :: rest => readWord? ['u', 'l', 'l'] .null rest
      | cs => readNumber? cs

def readItems? : Nat → List Char → List Json → Option (Json × List Char)
  | 0, _, _ => none
  | fuel + 1, cs, done =>
      match readValue? fuel cs with
      | none => none
      | some (item, rest) =>
          match skipSpace rest with
          | ',' :: rest => readItems? fuel rest (item :: done)
          | ']' :: rest => some (.array (item :: done).reverse, rest)
          | _ => none

def readMembers? : Nat → List Char → List (String × Json) → Option (Json × List Char)
  | 0, _, _ => none
  | fuel + 1, cs, done =>
      match skipSpace cs with
      | '"' :: rest =>
          match readString? (rest.length + 1) rest [] with
          | none => none
          | some (name, rest) =>
              match skipSpace rest with
              | ':' :: rest =>
                  match readValue? fuel rest with
                  | none => none
                  | some (value, rest) =>
                      match skipSpace rest with
                      | ',' :: rest => readMembers? fuel rest ((name, value) :: done)
                      | '\x7d' :: rest => some (.object ((name, value) :: done).reverse, rest)
                      | _ => none
              | _ => none
      | _ => none
end

def parse? (s : String) : Option Json :=
  let cs := s.toList
  match readValue? (cs.length + 1) cs with
  | some (value, rest) => if (skipSpace rest).isEmpty then some value else none
  | none => none

end Reconciler.Json
