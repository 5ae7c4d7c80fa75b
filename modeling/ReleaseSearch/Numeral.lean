/-! Decimal numerals, as data formats write them. -/
namespace ReleaseSearch

/-- The number `± digits · 10 ^ exponent`. -/
structure Numeral where
  negative : Bool
  digits : Nat
  exponent : Int
  /-- Written without a fraction and without an exponent. -/
  whole : Bool
deriving DecidableEq

namespace Numeral

def ofNat (n : Nat) : Numeral := ⟨false, n, 0, true⟩

/-- The count that the numeral stands for: no sign, no fraction, no exponent, at most 64 bits. -/
def natural? (n : Numeral) : Option Nat :=
  if n.whole && !n.negative && n.digits < UInt64.size then some n.digits else none

/-- Half a step above the greatest double: from here on a number rounds to infinity. -/
def overflow : Nat := Nat.pow 2 1024 - Nat.pow 2 970

/-- Whether the number is smaller in size than all that round to infinity. The number of digits
decides, except within a factor of a hundred of the limit. -/
def inRange (n : Numeral) : Bool :=
  let magnitude := (Nat.toDigits 10 n.digits).length + n.exponent
  n.digits == 0 || magnitude ≤ 308 ||
    (magnitude ≤ 310 &&
      n.digits * Nat.pow 10 n.exponent.toNat < overflow * Nat.pow 10 (-n.exponent).toNat)

end Numeral

end ReleaseSearch
