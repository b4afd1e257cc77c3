set_option autoImplicit false

namespace Reconciler.Text

-- The Unicode property `White_Space`.
def isBlank (c : Char) : Bool :=
  let n := c.toNat
  (9 ≤ n && n ≤ 13) || n == 0x20 || n == 0x85 || n == 0xa0 || n == 0x1680 || (0x2000 ≤ n && n ≤ 0x200a) ||
    n == 0x2028 || n == 0x2029 || n == 0x202f || n == 0x205f || n == 0x3000

def trimStart (cs : List Char) : List Char :=
  cs.dropWhile isBlank

def trimEnd (cs : List Char) : List Char :=
  (trimStart cs.reverse).reverse

def trim (s : String) : String :=
  String.ofList (trimEnd (trimStart s.toList))

def blank (s : String) : Bool :=
  s.toList.all isBlank

theorem trimStart_eq_nil {cs : List Char} : trimStart cs = [] ↔ cs.all isBlank := by
  induction cs with
  | nil => simp [trimStart]
  | cons c cs ih =>
      by_cases h : isBlank c <;> simp_all [trimStart]

theorem trimEnd_eq_nil {cs : List Char} : trimEnd cs = [] ↔ cs.all isBlank := by
  simp [trimEnd, trimStart_eq_nil]

theorem all_trimStart (cs : List Char) : (trimStart cs).all isBlank = cs.all isBlank := by
  induction cs with
  | nil => rfl
  | cons c cs ih =>
      by_cases h : isBlank c <;> simp_all [trimStart]

theorem trim_eq_empty_iff (s : String) : trim s = "" ↔ blank s = true := by
  have h : trim s = "" ↔ trimEnd (trimStart s.toList) = [] := by
    constructor
    · intro e
      have := congrArg String.toList e
      simpa [trim] using this
    · intro e
      simp [trim, e]
  rw [h, trimEnd_eq_nil, all_trimStart, blank]

end Reconciler.Text
