import Reconciler.Http.Target

set_option autoImplicit false

namespace Reconciler.Http.Uri

def isSchemeChar (c : Char) : Bool :=
  c.isAlphanum || c = '+' || c = '-' || c = '.'

def splitScheme? (cs : List Char) : Option (List Char × List Char) :=
  match cs.dropWhile isSchemeChar with
  | ':' :: '/' :: '/' :: rest => some (cs.takeWhile isSchemeChar, rest)
  | _ => none

def maxScheme : Nat := 64

def isHostChar (c : Char) : Bool :=
  c.isAlphanum || ['!', '$', '&', '\'', '(', ')', '*', '+', ',', '-', '.', ';', '=', '_', '~'].contains c

structure Host where
  colons : Nat := 0
  opened : Bool := false
  closed : Bool := false
  percent : Bool := false
  afterUser : Bool := false

def Host.step? (h : Host) (c : Char) : Option Host :=
  if c = ':' then
    if h.colons < 8 then some { h with colons := h.colons + 1, afterUser := false } else none
  else if c = '[' then
    if h.percent || h.opened then none else some { h with opened := true, afterUser := false }
  else if c = ']' then
    if !h.opened || h.closed then none
    else some { h with closed := true, colons := 0, percent := false, afterUser := false }
  else if c = '@' then some { h with colons := 0, percent := false, afterUser := true }
  else if c = '%' then some { h with percent := true, afterUser := false }
  else if isHostChar c then some { h with afterUser := false }
  else none

def Host.isComplete (h : Host) : Bool :=
  h.opened == h.closed && h.colons ≤ 1 && !h.afterUser && !h.percent

def isHost (cs : List Char) : Bool :=
  match cs.foldlM Host.step? ({} : Host) with
  | some h => h.isComplete
  | none => false

def isHostEnd (c : Char) : Bool :=
  c = '/' || c = '?' || c = '#'

def isValid (s : String) : Bool :=
  let cs := s.toList
  if s.utf8ByteSize > Target.maxBytes then false
  else if cs = [] then false
  else if cs = ['*'] then true
  else if cs.head? = some '/' then (Target.parse? s).isSome
  else
    match splitScheme? cs with
    | some (scheme, rest) =>
        let host := rest.takeWhile (!isHostEnd ·)
        scheme.length ≤ maxScheme && host ≠ [] && isHost host &&
          (Target.parse? (String.ofList (rest.dropWhile (!isHostEnd ·)))).isSome
    | none => isHost cs

end Reconciler.Http.Uri
