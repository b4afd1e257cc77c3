import Reconciler.Time.Date
import Reconciler.Time.Duration

set_option autoImplicit false

namespace Reconciler

namespace Timestamp

def secondsPerDay : Int := 86400

-- The number of the day -262143-01-01.
def firstDay : Int := -96465292

-- The number of the day 262142-12-31.
def lastDay : Int := 95026236

def Valid (day : Int) (second nano : Nat) : Prop :=
  firstDay ≤ day ∧ day ≤ lastDay ∧ second < 86400 ∧ nano < 2 * Duration.perSecond ∧
    (Duration.perSecond ≤ nano → second % 60 = 59)

instance (day : Int) (second nano : Nat) : Decidable (Valid day second nano) :=
  inferInstanceAs (Decidable (_ ∧ _ ∧ _ ∧ _ ∧ _))

end Timestamp

structure Timestamp where
  day : Int
  -- Seconds since midnight, leap seconds not counted.
  second : Nat
  nano : Nat
  valid : Timestamp.Valid day second nano
  deriving DecidableEq, Repr

namespace Timestamp

def epoch : Timestamp := ⟨0, 0, 0, by decide⟩

instance : Inhabited Timestamp := ⟨epoch⟩

def of? (day : Int) (second nano : Nat) : Option Timestamp :=
  if h : Valid day second nano then some ⟨day, second, nano, h⟩ else none

def before (a b : Timestamp) : Bool :=
  a.day < b.day || (a.day = b.day && (a.second < b.second || (a.second = b.second && a.nano < b.nano)))

theorem before_of_not_before {a b c : Timestamp} (later : b.before a = false) (ahead : b.before c = true) :
    a.before c = true := by
  simp only [before, Bool.or_eq_true, Bool.and_eq_true, decide_eq_true_eq, Bool.or_eq_false_iff,
    Bool.and_eq_false_imp, decide_eq_false_iff_not] at later ahead ⊢
  omega

def inLeapSecond (t : Timestamp) : Bool :=
  Duration.perSecond ≤ t.nano

-- A number of seconds later, or earlier if it is negative. Leaving a leap second forwards counts from the start of
-- the second it extends, backwards from the second after. Nothing is left beyond the last day.
def addSeconds? (t : Timestamp) (n : Int) : Option Timestamp :=
  -- Only standing still keeps a leap second.
  if t.inLeapSecond && n == 0 then some t
  else
    let nano := if t.inLeapSecond then t.nano - Duration.perSecond else t.nano
    let second : Int := if t.inLeapSecond && n < 0 then t.second + 1 else t.second
    -- Division rounds down, so times before midnight fall on the day before.
    let total := second + n
    of? (t.day + total / secondsPerDay) (total % secondsPerDay).toNat nano

-- Nanoseconds from `b` to `a`. A leap second counts as passed once the second of the day has moved on.
def since (a b : Timestamp) : Int :=
  let seconds : Int := (a.day - b.day) * secondsPerDay + (a.second - b.second)
  let seconds :=
    if a.second > b.second && b.inLeapSecond then seconds + 1
    else if a.second < b.second && a.inLeapSecond then seconds - 1
    else seconds
  seconds * Duration.perSecond + (a.nano - b.nano)

def since? (a b : Timestamp) : Option Duration :=
  if 0 ≤ since a b then some ⟨(since a b).toNat⟩ else none

example : (Date.mk (-262143) 1 1).number = firstDay := by decide
example : (Date.mk 262142 12 31).number = lastDay := by decide

end Timestamp

end Reconciler
