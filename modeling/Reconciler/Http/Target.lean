set_option autoImplicit false

namespace Reconciler.Http

structure Target where
  path : String
  query : List String
  deriving DecidableEq, Repr

namespace Target

-- Everything above the ASCII characters that are printed can be sent.
def isPathChar (c : Char) : Bool :=
  let n := c.toNat
  n = 0x21 || n = 0x22 || (0x24 ≤ n && n ≤ 0x3b) || n = 0x3d || (0x40 ≤ n && n ≤ 0x5f) || 0x61 ≤ n

def isQueryChar (c : Char) : Bool :=
  let n := c.toNat
  n = 0x21 || (0x24 ≤ n && n ≤ 0x3b) || n = 0x3d || 0x3f ≤ n

def maxBytes : Nat := 65534

def parameters (query : List Char) : List String :=
  ((query.splitOn '&').filter (· ≠ [])).map String.ofList

def parse? (s : String) : Option Target :=
  let cs := s.toList.takeWhile (· ≠ '#')
  let path := cs.takeWhile (· ≠ '?')
  let query := (cs.dropWhile (· ≠ '?')).drop 1
  if s.utf8ByteSize ≤ maxBytes && path.all isPathChar && query.all isQueryChar then
    some ⟨String.ofList path, parameters query⟩
  else none

end Target

end Reconciler.Http
