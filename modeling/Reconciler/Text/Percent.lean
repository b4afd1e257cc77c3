import Reconciler.Text.Quoted

set_option autoImplicit false

namespace Reconciler.Text

def isPlainByte (b : UInt8) : Bool :=
  let c := Char.ofNat b.toNat
  c.isAlphanum || c = '*' || c = '-' || c = '.' || c = '_'

def encodeByte (b : UInt8) : List Char :=
  if isPlainByte b then [Char.ofNat b.toNat]
  else if b = 0x20 then ['+']
  else ['%', (hexDigit (b.toNat / 16)).toUpper, (hexDigit (b.toNat % 16)).toUpper]

def formEncode (s : String) : String :=
  -- Every byte of a character above U+007F is escaped.
  String.ofList (s.toUTF8.toList.flatMap encodeByte)

end Reconciler.Text
