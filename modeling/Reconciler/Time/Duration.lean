set_option autoImplicit false

namespace Reconciler

structure Duration where
  nanos : Nat
  deriving DecidableEq, Repr, Inhabited

namespace Duration

def perSecond : Nat := 1000000000

def zero : Duration := ⟨0⟩

def ofSeconds (n : Nat) : Duration := ⟨n * perSecond⟩

def ofMillis (n : Nat) : Duration := ⟨n * 1000000⟩

def ofMinutes (n : Nat) : Duration := ofSeconds (n * 60)

def seconds (d : Duration) : Nat := d.nanos / perSecond

def subNanos (d : Duration) : Nat := d.nanos % perSecond

def millis (d : Duration) : Nat := d.nanos / 1000000

def minutes (d : Duration) : Nat := d.seconds / 60

def isZero (d : Duration) : Bool := d.nanos = 0

def min (a b : Duration) : Duration := ⟨Nat.min a.nanos b.nanos⟩

def double (d : Duration) : Duration := ⟨d.nanos * 2⟩

-- The nearest whole number, of two the even one.
def nearest (n d : Nat) : Nat :=
  let whole := n / d
  let rest := 2 * (n % d)
  if rest < d || (rest == d && whole % 2 == 0) then whole else whole + 1

-- The nearest number with 53 significant bits.
def rounded (n d : Nat) : Nat :=
  let unit := Nat.pow 2 ((n / d).log2 - 52)
  nearest n (d * unit) * unit

-- Small enough to hold the last bit of a nanosecond, of half of one, and of all that is longer.
def grains : Nat := Nat.pow 2 83

-- In seconds, as a number of grains with 53 significant bits.
def binarySeconds (d : Duration) : Nat :=
  rounded (rounded (d.seconds * grains) 1 + rounded (d.subNanos * grains) perSecond) 1

def scale (d : Duration) (n m : Nat) : Duration :=
  ⟨nearest (rounded (d.binarySeconds * n) m * perSecond) grains⟩

instance : LE Duration := ⟨fun a b => a.nanos ≤ b.nanos⟩
instance : LT Duration := ⟨fun a b => a.nanos < b.nanos⟩
instance (a b : Duration) : Decidable (a ≤ b) := inferInstanceAs (Decidable (a.nanos ≤ b.nanos))
instance (a b : Duration) : Decidable (a < b) := inferInstanceAs (Decidable (a.nanos < b.nanos))

@[simp] theorem isZero_zero : zero.isZero = true := rfl

@[simp] theorem seconds_ofSeconds (n : Nat) : (ofSeconds n).seconds = n := by
  simp [ofSeconds, seconds, perSecond]

def fractionDigits : (width n : Nat) → List Char
  | 0, _ => []
  | width + 1, n =>
      if n = 0 then []
      else Char.ofNat (48 + n / 10 ^ width % 10) :: fractionDigits width (n % 10 ^ width)

def text (d : Duration) : String :=
  let shown (whole part width : Nat) (unit : String) : String :=
    let digits := fractionDigits width part
    toString whole ++ String.ofList (if digits.isEmpty then [] else '.' :: digits) ++ unit
  if perSecond ≤ d.nanos then shown d.seconds d.subNanos 9 "s"
  else if 1000000 ≤ d.nanos then shown (d.nanos / 1000000) (d.nanos % 1000000) 6 "ms"
  else if 1000 ≤ d.nanos then shown (d.nanos / 1000) (d.nanos % 1000) 3 "µs"
  else shown d.nanos 0 0 "ns"

end Duration

end Reconciler
