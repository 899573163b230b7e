/-!
# Shortest decimals

A binary floating-point number stands for every real number that rounds to it.  Its shortest
decimal is a multiple of the largest power of ten that has a multiple among those reals, and of
two such multiples the nearer.
-/

namespace SemiLex

/-- The number `digits × 10 ^ exponent`. -/
structure Decimal where
  digits : Nat
  exponent : Int
  deriving DecidableEq, Repr

/-- A positive number of binary floating point, `mantissa × 2 ^ exponent`.  At the lower end of a
power of two the next smaller number is only half as far away. -/
structure Binary where
  mantissa : Nat
  exponent : Int
  isNarrowBelow : Bool
  deriving DecidableEq, Repr

namespace Binary

def ofBits (bits : Nat) : Binary :=
  let field : Nat := bits / 0x10000000000000 % 0x800
  let fraction : Nat := bits % 0x10000000000000
  if field = 0 then ⟨fraction, -1074, false⟩
  else ⟨0x10000000000000 + fraction, (field : Int) - 1075, fraction = 0 ∧ 1 < field⟩

/-- `⌊n × 2 ^ exponent / (4 × 10 ^ power)⌋` as numerator and denominator. -/
def scaled (b : Binary) (power : Int) (n : Nat) : Nat × Nat :=
  (n * Nat.pow 2 b.exponent.toNat * Nat.pow 10 (-power).toNat,
    4 * Nat.pow 2 (-b.exponent).toNat * Nat.pow 10 power.toNat)

def roundsFrom (b : Binary) (power : Int) (digits : Nat) : Bool :=
  let (low, unit) := b.scaled power (4 * b.mantissa - if b.isNarrowBelow then 1 else 2)
  let (high, _) := b.scaled power (4 * b.mantissa + 2)
  if b.mantissa % 2 = 0 then low ≤ digits * unit && digits * unit ≤ high
  else low < digits * unit && digits * unit < high

/-- The multiple of `10 ^ power` that is nearest to the number among those that round to it.  Of
two that are equally near it is the even one. -/
def nearest? (b : Binary) (power : Int) : Option Nat :=
  let (value, unit) := b.scaled power (4 * b.mantissa)
  let below := value / unit
  let isBelow := below ≠ 0 && b.roundsFrom power below
  let isAbove := b.roundsFrom power (below + 1)
  let nearer :=
    if 2 * (value % unit) < unit then below
    else if 2 * (value % unit) = unit ∧ below % 2 = 0 then below
    else below + 1
  if isBelow && isAbove then some nearer
  else if isBelow then some below
  else if isAbove then some (below + 1)
  else none

def shortest? (b : Binary) : Option Decimal :=
  (List.range 640).findSome? fun (n : Nat) =>
    let power : Int := 310 - (n : Int)
    (b.nearest? power).map fun digits => ⟨digits, power⟩

end Binary

end SemiLex
