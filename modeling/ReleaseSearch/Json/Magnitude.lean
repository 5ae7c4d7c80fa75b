import ReleaseSearch.Numeral
import ReleaseSearch.Text.Digits

/-! Which numbers of a JSON text are small enough. A number is taken as the product of two doubles:
its leading digits, as many as 64 bits hold, and a power of ten. It is too large when that product
rounds to infinity, which happens a little below the greatest double already. -/
namespace ReleaseSearch.Json

/-- Takes digits behind those of `n`, as long as 64 bits hold what they make. -/
def takeDigits (n : Nat) : List Char → Nat × List Char
  | [] => (n, [])
  | c :: rest =>
    let next := n * 10 + (Text.hexValue? c).getD 0
    if next < UInt64.size then takeDigits next rest else (n, c :: rest)

/-- The nearest number of at most 53 binary digits. Of two the one with an even last digit counts. -/
def nearestDouble (n : Nat) : Nat :=
  let step := Nat.pow 2 (n.log2 - 52)
  let steps := n / step
  let excess := 2 * (n % step)
  if step < excess || (step == excess && steps % 2 == 1) then (steps + 1) * step else steps * step

/-- Whether a number with these digits before and behind the point is small enough. The digits that
are not taken count as zeros. A negative exponent makes no number too large. -/
def isSmallEnough (whole fraction : List Char) (exponent : Int) : Bool :=
  let (n, dropped) := takeDigits 0 whole
  let (n, ignored) := takeDigits n fraction
  let exponent := exponent + dropped.length - (fraction.length - ignored.length)
  n == 0 || exponent < 0 ||
    (exponent ≤ 308 &&
      nearestDouble n * nearestDouble (Nat.pow 10 exponent.toNat) < Numeral.overflow)

end ReleaseSearch.Json
