import Reflash.Decimal.Binary
/-!
# Shortest decimal text

The decimal text of a number of double precision: the fewest digits that read back as the number,
of those the nearest to it, written without an exponent and with at least one digit behind the
point.
-/

namespace Reflash.Decimal

namespace Binary

def fraction (b : Binary) : Nat × Nat := scaleBinary b.mantissa 1 b.exponent

/-- The number of digits in front of the point; not positive for a number below one tenth. -/
def decimalOrder (b : Binary) : Int :=
  let (num, den) := b.fraction
  ((toString (raise 10 340 * num / den)).length : Int) - 340

/-- Whether `digits * 10 ^ power` is among the numbers that round to this one. Both ends of their
interval are halfway to a neighbour, and belong to it if the mantissa is even. The neighbour below
is half as far away where the mantissa is the least one with all its bits. -/
def readsBack (b : Binary) (digits : Nat) (power : Int) : Bool :=
  let narrow := b.mantissa = leastFull ∧ minExponent < b.exponent
  let low := if narrow then 4 * b.mantissa - 1 else 4 * b.mantissa - 2
  let high := 4 * b.mantissa + 2
  let quarter := b.exponent - 2
  let at10 := digits * raise 10 power * raise 2 (-quarter)
  let at2 (end4 : Nat) := end4 * raise 2 quarter * raise 10 (-power)
  if b.mantissa % 2 = 0 then at2 low ≤ at10 && at10 ≤ at2 high
  else at2 low < at10 && at10 < at2 high

/-- Of the two neighbours of the number on the grid of a power of ten, the nearer one that reads
back. Of two equally near ones it is the upper. -/
def onGrid? (b : Binary) (power : Int) : Option Nat :=
  let (num, den) := b.fraction
  let (n, d) := scaleDecimal num den (-power)
  let below := n / d
  let up := b.readsBack (below + 1) power && decide ((2 * below + 1) * d ≤ 2 * n)
  if up then some (below + 1)
  else if b.readsBack below power then some below
  else if b.readsBack (below + 1) power then some (below + 1)
  else none

/-- The shortest digits that read back and the power of ten of the last of them. Seventeen digits
always read back. -/
def shortest (b : Binary) : Nat × Int :=
  let powers := (List.range 17).map fun (i : Nat) => b.decimalOrder - 1 - i
  (powers.findSome? fun power => (b.onGrid? power).map (·, power)).getD (0, 0)

end Binary

def positional (digits : Nat) (power : Int) : String :=
  let (digits, power) := if power < 0 ∧ digits % 10 = 0 then (digits / 10, power + 1)
    else (digits, power)
  let written := toString digits ++ "".pushn '0' power.toNat
  let places := (-power).toNat
  if places = 0 then written ++ ".0"
  else
    let padded := "".pushn '0' (places + 1 - written.length) ++ written
    let split := padded.length - places
    String.ofList (padded.toList.take split) ++ "." ++ String.ofList (padded.toList.drop split)

def Binary.text (b : Binary) : String :=
  if b.mantissa = 0 then "0.0"
  else
    let (digits, power) := b.shortest
    positional digits power

end Reflash.Decimal
