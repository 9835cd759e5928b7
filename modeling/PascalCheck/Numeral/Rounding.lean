import PascalCheck.Numeral.Real

namespace PascalCheck.Numeral

/-- A quotient rounded to a whole number, where a half goes to the even neighbour. -/
def roundQuotient (n d : Nat) : Nat :=
  let q := n / d
  let r := n % d
  if 2 * r < d || (2 * r == d && q % 2 == 0) then q else q + 1

def Scientific.quotient (x : Scientific) : Nat × Nat :=
  (x.mantissa * x.base.pow x.exponent.toNat, x.base.pow (-x.exponent).toNat)

def Scientific.wholePart (x : Scientific) : Nat :=
  let (n, d) := x.quotient
  let bits := (n / d).log2 + 1
  if n / d = 0 then roundQuotient (n <<< 53) d >>> 53
  else if bits ≤ 53 then roundQuotient (n <<< (53 - bits)) d >>> (53 - bits)
  else roundQuotient n (d <<< (bits - 53)) <<< (bits - 53)

end PascalCheck.Numeral
