import SemiLex.Decimal.Shortest

/-!
# How a number of floating point is written
-/

namespace SemiLex

structure NumberStyle where
  /-- The least exponent of the first digit that is written without a power of ten. -/
  leastPlain : Int
  /-- The greatest exponent of the first digit that is written without a power of ten. -/
  greatestPlain : Int
  positiveMark : List Char
  negativeMark : List Char

namespace NumberStyle

/-- Powers of ten appear below 10⁻⁵ and from 10¹⁶ on, with a sign. -/
def standard : NumberStyle := ⟨-5, 15, ['e', '+'], ['e', '-']⟩

def digitsOf (n : Nat) : List Char :=
  Nat.toDigits 10 n

/-- A decimal without a power of ten.  There is always a digit after the point. -/
def plain (d : Decimal) : List Char :=
  let digits := digitsOf d.digits
  if 0 ≤ d.exponent then digits ++ List.replicate d.exponent.toNat '0' ++ ['.', '0']
  else
    let places := (-d.exponent).toNat
    if places < digits.length then
      digits.take (digits.length - places) ++ '.' :: digits.drop (digits.length - places)
    else ['0', '.'] ++ List.replicate (places - digits.length) '0' ++ digits

def scientific (style : NumberStyle) (d : Decimal) : List Char :=
  let digits := digitsOf d.digits
  let exponent := d.exponent + digits.length - 1
  let mark := if 0 ≤ exponent then style.positiveMark else style.negativeMark
  digits.take 1 ++ (if digits.length = 1 then [] else '.' :: digits.drop 1) ++ mark ++
    digitsOf exponent.natAbs

def decimal (style : NumberStyle) (d : Decimal) : List Char :=
  let exponent := d.exponent + (digitsOf d.digits).length - 1
  if style.leastPlain ≤ exponent ∧ exponent ≤ style.greatestPlain then plain d
  else style.scientific d

/-- A finite number of floating point as text: the fewest digits that read back as it. -/
def float (style : NumberStyle) (x : Float) : List Char :=
  let bits := x.toBits.toNat
  let sign := if bits / 0x8000000000000000 = 0 then [] else ['-']
  let magnitude := bits % 0x8000000000000000
  if magnitude = 0 then sign ++ ['0', '.', '0']
  else sign ++ ((Binary.ofBits magnitude).shortest?.elim [] style.decimal)

end NumberStyle

end SemiLex
