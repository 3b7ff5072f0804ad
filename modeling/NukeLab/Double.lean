import Mathlib.Data.Rat.Floor
import Mathlib.Algebra.Order.Field.Power

namespace NukeLab.Double

def exponent (q : ℚ) : ℤ :=
  let e : ℤ := (Nat.log2 q.num.toNat : ℤ) - Nat.log2 q.den
  if q < 2 ^ e then e - 1 else e

def halfEven (q : ℚ) : ℤ :=
  let m := ⌊q⌋
  let r := q - m
  if r < 1 / 2 ∨ (r = 1 / 2 ∧ m % 2 = 0) then m else m + 1

/-- The binary64 value nearest to a non-negative rational, ties to the even
significand. Overflow and gradual underflow are out of its range. -/
def nearest (q : ℚ) : ℚ :=
  if q ≤ 0 then 0
  else
    let ulp : ℚ := 2 ^ (exponent q - 52)
    halfEven (q / ulp) * ulp

def mul (a b : ℚ) : ℚ := nearest (a * b)

def div (a b : ℚ) : ℚ := nearest (a / b)

/-- `f"{q:.1f}"` of a non-negative value. -/
def fixed (q : ℚ) : String :=
  let tenths := halfEven (q * 10)
  toString (tenths / 10) ++ "." ++ toString (tenths % 10)

def padded (width : Nat) (n : ℤ) : String :=
  let digits := toString n
  String.ofList (List.replicate (width - digits.length) '0') ++ digits

/-- `str(q)` of a non-negative value from 10⁻⁴ up to 10¹⁶: the fewest decimals
that read back as the same value, and at least one. -/
def repr (q : ℚ) : String :=
  let decimals := ((List.range 18).find? fun k => nearest (halfEven (q * 10 ^ k) / 10 ^ k) = q).getD 17
  let scaled := halfEven (q * 10 ^ decimals)
  let ones : ℤ := 10 ^ decimals
  toString (scaled / ones) ++ "." ++ (if decimals = 0 then "0" else padded decimals (scaled % ones))

example : mul (div (div 3600000000 1000000) 3600) 7 = 7 := by decide +kernel

example : div 1 10 = 3602879701896397 / 36028797018963968 := by decide +kernel

example : repr (div 1 10) = "0.1" := by decide +kernel

end NukeLab.Double
