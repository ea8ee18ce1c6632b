import Mathlib.Data.Rat.Defs
import Mathlib.Data.Rat.Floor

/-!
# Binary64 arithmetic on rationals

A finite double is the rational it denotes. Each operation rounds its exact
result to 53 significant bits, ties to even, with the subnormal spacing as the
finest one.
-/

namespace Base.Binary64

def pow2 : ℤ → ℚ
  | .ofNat n => (2 ^ n : ℕ)
  | .negSucc n => mkRat 1 (2 ^ (n + 1))

/-- The exponent of the leading bit of a positive rational. -/
def exponent (q : ℚ) : ℤ :=
  let e : ℤ := (Nat.log2 q.num.natAbs : ℤ) - Nat.log2 q.den
  if q < pow2 e then e - 1 else e

def roundHalfEven (q : ℚ) : ℤ :=
  let below := q.floor
  let rest := q - below
  if rest < 1 / 2 then below
  else if 1 / 2 < rest then below + 1
  else if below % 2 = 0 then below
  else below + 1

def nearest (q : ℚ) : ℚ :=
  if q = 0 then 0
  else
    let e := max (exponent |q| - 52) (-1074)
    roundHalfEven (q / pow2 e) * pow2 e

/-- Rounding of an exact value, `none` on overflow to infinity. -/
def ofRat (q : ℚ) : Option ℚ :=
  let r := nearest q
  if |r| < pow2 1024 then some r else none

def add (a b : ℚ) : ℚ := nearest (a + b)
def sub (a b : ℚ) : ℚ := nearest (a - b)
def mul (a b : ℚ) : ℚ := nearest (a * b)
def div (a b : ℚ) : ℚ := nearest (a / b)

/-- The saturating cast to an unsigned integer below `bound`. -/
def toNat (bound : ℕ) (q : ℚ) : ℕ := min q.floor.toNat (bound - 1)

end Base.Binary64
