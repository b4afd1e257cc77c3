import Reconciler.Text.Blank
import Reconciler.Time.Timestamp

set_option autoImplicit false

namespace Reconciler.Timestamp

def padded (width n : Nat) : List Char :=
  let digits := (toString n).toList
  List.replicate (width - digits.length) '0' ++ digits

def yearText (year : Int) : List Char :=
  if 0 ≤ year ∧ year ≤ 9999 then padded 4 year.toNat
  else (if year < 0 then '-' else '+') :: padded 4 year.natAbs

def dateText (d : Date) : List Char :=
  yearText d.year ++ '-' :: padded 2 d.month ++ '-' :: padded 2 d.day

def fractionText (nano : Nat) : List Char :=
  if nano = 0 then []
  else if nano % 1000000 = 0 then '.' :: padded 3 (nano / 1000000)
  else if nano % 1000 = 0 then '.' :: padded 6 (nano / 1000)
  else '.' :: padded 9 nano

def secondOfMinute (t : Timestamp) : Nat :=
  if t.inLeapSecond then t.second % 60 + 1 else t.second % 60

def fraction (t : Timestamp) : Nat :=
  if t.inLeapSecond then t.nano - Duration.perSecond else t.nano

def wholeText (t : Timestamp) : List Char :=
  dateText (Date.ofNumber t.day) ++ 'T' :: padded 2 (t.second / 3600) ++ ':' :: padded 2 (t.second / 60 % 60) ++
    ':' :: padded 2 t.secondOfMinute

def render (t : Timestamp) : String :=
  String.ofList (t.wholeText ++ fractionText t.fraction ++ ['Z'])

def renderSeconds (t : Timestamp) : String :=
  String.ofList (t.wholeText ++ ['Z'])

def readDigits? : Nat → List Char → Option (Nat × List Char)
  | 0, _ => none
  | most + 1, c :: rest =>
      if c.isDigit then some (more most (c.toNat - 48) rest) else none
  | _ + 1, [] => none
where
  more : Nat → Nat → List Char → Nat × List Char
  | 0, value, cs => (value, cs)
  | most + 1, value, c :: rest =>
      if c.isDigit then more most (value * 10 + (c.toNat - 48)) rest else (value, c :: rest)
  | _ + 1, value, [] => (value, [])

def readPart? (most : Nat) (cs : List Char) : Option (Nat × List Char) :=
  readDigits? most (Text.trimStart cs)

def readYear? (cs : List Char) : Option (Int × List Char) :=
  match Text.trimStart cs with
  | '-' :: rest => (readDigits? rest.length rest).map fun (n, rest) => (-n, rest)
  | '+' :: rest => (readDigits? rest.length rest).map fun (n, rest) => (n, rest)
  | cs => (readDigits? 4 cs).map fun (n, rest) => (n, rest)

def skipMark? (mark : Char) (cs : List Char) : Option (List Char) :=
  match Text.trimStart cs with
  | c :: rest => if c = mark then some rest else none
  | [] => none

def readFraction? : List Char → Option (Nat × List Char)
  | '.' :: rest => do
      let (value, after) ← readDigits? 9 rest
      let count := rest.length - after.length
      pure (value * Nat.pow 10 (9 - count), after.dropWhile Char.isDigit)
  | cs => some (0, cs)

def isOffsetMark (c : Char) : Bool :=
  c = ':' || Text.isBlank c

def readOffset? (cs : List Char) : Option (Int × List Char) :=
  match Text.trimStart cs with
  | [] => none
  | c :: rest =>
      if c = 'Z' || c = 'z' then some (0, rest)
      else if (c :: rest).take 3 |>.map Char.toUpper |> (· == ['U', 'T', 'C']) then some (0, rest.drop 2)
      else if c = '+' || c = '-' || c = '−' then
        match rest with
        | h :: h' :: rest =>
            match rest.dropWhile isOffsetMark with
            | m :: m' :: rest =>
                if h.isDigit && h'.isDigit && m.isDigit && m'.isDigit && m < '6' then
                  let hours : Int := (h.toNat - 48) * 10 + (h'.toNat - 48)
                  let minutes : Int := (m.toNat - 48) * 10 + (m'.toNat - 48)
                  let offset := hours * 3600 + minutes * 60
                  some (if c = '+' then offset else -offset, rest)
                else none
            | _ => none
        | _ => none
      else none

def ofLocal? (date : Date) (hour minute second nano : Nat) (offset : Int) : Option Timestamp :=
  if date.Exists ∧ hour < 24 ∧ minute < 60 ∧ second ≤ 60 ∧ -86400 < offset ∧ offset < 86400 ∧
      firstDay ≤ date.number ∧ date.number ≤ lastDay then
    -- The leap second of any minute is accepted.
    let leap := second = 60
    let total : Int := hour * 3600 + minute * 60 + (if leap then 59 else second) - offset
    of? (date.number + total / secondsPerDay) (total % secondsPerDay).toNat
      (if leap then nano + Duration.perSecond else nano)
  else none

def readDate? (cs : List Char) : Option (Date × List Char) := do
  let (year, cs) ← readYear? cs
  let cs ← skipMark? '-' cs
  let (month, cs) ← readPart? 2 cs
  let cs ← skipMark? '-' cs
  let (day, cs) ← readPart? 2 cs
  pure (⟨year, month, day⟩, cs)

def skipTimeMark? : List Char → Option (List Char)
  | c :: rest => if c = 'T' || c = 't' || c = ' ' then some rest else none
  | [] => none

def parse? (s : String) : Option Timestamp := do
  let (date, cs) ← readDate? s.toList
  let cs ← skipTimeMark? cs
  let (hour, cs) ← readPart? 2 cs
  let cs ← skipMark? ':' cs
  let (minute, cs) ← readPart? 2 cs
  let cs ← skipMark? ':' cs
  let (second, cs) ← readPart? 2 cs
  let (nano, cs) ← readFraction? cs
  let (offset, cs) ← readOffset? cs
  if (Text.trimStart cs).isEmpty then ofLocal? date hour minute second nano offset else none

end Reconciler.Timestamp
