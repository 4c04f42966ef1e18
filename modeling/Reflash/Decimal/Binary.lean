/-!
# Numbers of double precision

A non-negative number as a double-precision word holds it, and the number of that kind nearest to
a decimal one.
-/

namespace Reflash.Decimal

/-- The number `mantissa * 2 ^ exponent`. The mantissa has at most 53 bits, and exactly 53 unless
the exponent is the least one. -/
structure Binary where
  mantissa : Nat
  exponent : Int
  deriving DecidableEq

/-- The quotient rounded to the nearest integer, a half to the even neighbour. -/
def roundDiv (num den : Nat) : Nat :=
  let quotient := num / den
  let rest := 2 * (num % den)
  if rest < den ∨ (rest = den ∧ quotient % 2 = 0) then quotient else quotient + 1

def raise (base : Nat) (power : Int) : Nat := Nat.pow base power.toNat

def scaleBinary (num den : Nat) (power : Int) : Nat × Nat :=
  (num * raise 2 power, den * raise 2 (-power))

def scaleDecimal (num den : Nat) (power : Int) : Nat × Nat :=
  (num * raise 10 power, den * raise 10 (-power))

def binaryOrder (num den : Nat) : Int :=
  let guess := (num.log2 : Int) - den.log2
  let (n, d) := scaleBinary num den (-guess)
  if d ≤ n then guess else guess - 1

namespace Binary

def minExponent : Int := -1074
def maxExponent : Int := 971
def leastFull : Nat := 0x10000000000000

/-- The nearest number to a positive fraction; none if that is beyond the largest number. -/
def ofFraction? (num den : Nat) : Option Binary :=
  let exponent := max minExponent (binaryOrder num den - 52)
  let (n, d) := scaleBinary num den (-exponent)
  let mantissa := roundDiv n d
  let b : Binary :=
    if mantissa = 2 * leastFull then ⟨leastFull, exponent + 1⟩ else ⟨mantissa, exponent⟩
  if maxExponent < b.exponent then none else some b

/-- The nearest number to `digits * 10 ^ exponent`; none if that is beyond the largest number. A
number far outside the range is decided by its order of magnitude alone. -/
def ofDecimal? (digits : Nat) (exponent : Int) : Option Binary :=
  let order := (toString digits).length + exponent
  if digits = 0 ∨ order < -400 then some ⟨0, minExponent⟩
  else if 400 < order then none
  else
    let (num, den) := scaleDecimal digits 1 exponent
    ofFraction? num den

end Binary
end Reflash.Decimal
