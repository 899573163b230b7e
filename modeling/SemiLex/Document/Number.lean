import SemiLex.Document.Fault

/-!
# Numbers of a document

First the written form is taken apart, then its value is worked out.  A number without a point
and without an exponent is an integer as long as it fits into 64 bits.  Every other number is of
floating point: as many digits as fit into 64 bits, times a power of ten.
-/

namespace SemiLex

structure Numeral where
  isNegative : Bool
  whole : Text
  fraction : Option Text
  /-- The sign and the digits of the exponent. -/
  exponent : Option (Bool × Text)
  deriving DecidableEq, Repr

/-! ## The written form -/

/-- The digits that have to stand at the start of a text, and what follows them. -/
def digitsAt : Text → Except DocumentFault (Text × Text)
  | [] => .error .noValue
  | c :: cs =>
    if c.isDigit then .ok ((c :: cs).takeWhile Char.isDigit, (c :: cs).dropWhile Char.isDigit)
    else .error .invalidNumber

theorem length_digitsAt_lt {text : Text} {r : Text × Text} (h : digitsAt text = .ok r) :
    r.2.length < text.length := by
  unfold digitsAt at h
  split at h
  · cases h
  · rename_i c cs
    split at h
    · rename_i hdigit
      cases h
      have hrest : (cs.dropWhile Char.isDigit).Sublist cs := List.dropWhile_sublist Char.isDigit
      have hlength := hrest.length_le
      simp only [List.dropWhile_cons, hdigit, if_true, List.length_cons]
      omega
    · cases h

namespace Numeral

def fractionAt : Text → Except DocumentFault (Option Text × Text)
  | '.' :: cs => do
    let (digits, cs) ← digitsAt cs
    return (some digits, cs)
  | cs => .ok (none, cs)

def signAt : Text → Bool × Text
  | '+' :: cs => (false, cs)
  | '-' :: cs => (true, cs)
  | cs => (false, cs)

def exponentAt : Text → Except DocumentFault (Option (Bool × Text) × Text)
  | [] => .ok (none, [])
  | c :: cs =>
    if c = 'e' ∨ c = 'E' then do
      let (isNegative, cs) := signAt cs
      let (digits, cs) ← digitsAt cs
      return (some (isNegative, digits), cs)
    else .ok (none, c :: cs)

def at? (text : Text) : Except DocumentFault (Numeral × Text) := do
  let isNegative := text.head? = some '-'
  let (whole, text) ← digitsAt (if isNegative then text.tail else text)
  if whole.head? = some '0' ∧ 1 < whole.length then throw .invalidNumber
  let (fraction, text) ← fractionAt text
  let (exponent, text) ← exponentAt text
  return (⟨isNegative, whole, fraction, exponent⟩, text)

theorem length_fractionAt_le {text : Text} {r : Option Text × Text}
    (h : fractionAt text = .ok r) : r.2.length ≤ text.length := by
  unfold fractionAt at h
  split at h
  · simp only [bind, Except.bind] at h
    split at h
    · cases h
    · rename_i digits hdigits
      have := length_digitsAt_lt hdigits
      cases h
      simp only [List.length_cons]
      omega
  · cases h
    exact Nat.le_refl _

theorem length_signAt_le (text : Text) : (signAt text).2.length ≤ text.length := by
  unfold signAt
  split <;> simp

theorem length_exponentAt_le {text : Text} {r : Option (Bool × Text) × Text}
    (h : exponentAt text = .ok r) : r.2.length ≤ text.length := by
  unfold exponentAt at h
  split at h
  · cases h
    exact Nat.le_refl _
  · rename_i c cs
    split at h
    · simp only [bind, Except.bind] at h
      split at h
      · cases h
      · rename_i digits hdigits
        have := length_digitsAt_lt hdigits
        have := length_signAt_le cs
        cases h
        simp only [List.length_cons]
        omega
    · cases h
      exact Nat.le_refl _

theorem length_at?_lt {text rest : Text} {n : Numeral} (h : at? text = .ok (n, rest)) :
    rest.length < text.length := by
  simp only [at?, bind, Except.bind] at h
  split at h
  · cases h
  · rename_i first hfirst
    have hwhole := length_digitsAt_lt hfirst
    split at h
    · cases h
    · split at h
      · cases h
      · rename_i second hsecond
        have hfraction := length_fractionAt_le hsecond
        split at h
        · cases h
        · rename_i third hthird
          have hexponent := length_exponentAt_le hthird
          simp only [pure, Except.pure, Except.ok.injEq, Prod.mk.injEq] at h
          obtain ⟨-, rfl⟩ := h
          have htail :
              (if text.head? = some '-' then text.tail else text).length ≤ text.length := by
            split
            · simp
            · exact Nat.le_refl _
          omega

/-! ## The value -/

def digitValue (c : Char) : Nat :=
  c.toNat - '0'.toNat

/-- Appends digits to a number as long as it stays below 2⁶⁴.  The second part counts the digits
that were appended. -/
def absorb (n : Nat) : Text → Nat × Nat
  | [] => (n, 0)
  | c :: cs =>
    let n' := n * 10 + digitValue c
    if n' < 2 ^ 64 then
      let (result, count) := absorb n' cs
      (result, count + 1)
    else (n, 0)

/-- Powers of ten beyond this one are no doubles. -/
def maxPower : Nat := 308

def powerOfTen (n : Nat) : Float :=
  Float.ofScientific 1 false n

/-- `x / 10 ^ n`, in steps of the greatest power of ten. -/
def divideByPower (x : Float) (n : Nat) : Float :=
  if n ≤ maxPower then x / powerOfTen n
  else if x == 0 then x
  else divideByPower (x / powerOfTen maxPower) (n - maxPower)
termination_by n
decreasing_by simp only [maxPower] at *; omega

def scale (isNegative : Bool) (significand : Nat) (power : Int) : Except DocumentFault Number := do
  let x := significand.toFloat
  let magnitude ←
    if power < 0 then pure (divideByPower x power.natAbs)
    else if power ≤ maxPower then
      let product := x * powerOfTen power.toNat
      if product.isInf then throw .numberOutOfRange else pure product
    else if x == 0 then pure x
    else throw .numberOutOfRange
  return .float (if isNegative then -magnitude else magnitude)

/-- Appends digits to an exponent, which has to stay below 2³¹. -/
def exponentValue? (n : Nat) : Text → Option Nat
  | [] => some n
  | c :: cs =>
    let n' := n * 10 + digitValue c
    if n' < 2 ^ 31 then exponentValue? n' cs else none

def shifted (n : Numeral) (significand : Nat) (power : Int) : Except DocumentFault Number :=
  match n.exponent with
  | none => scale n.isNegative significand power
  | some (isNegative, digits) =>
    match exponentValue? 0 digits with
    | some e => scale n.isNegative significand (if isNegative then power - e else power + e)
    | none =>
      if significand ≠ 0 ∧ isNegative = false then throw .numberOutOfRange
      else scale n.isNegative 0 0

/-- An integer of 64 bits.  A negative zero, and a negative number below the range, is of floating
point. -/
def integer (isNegative : Bool) (n : Nat) : Number :=
  if isNegative = false then .integer n
  else if 0 < n ∧ n ≤ 0x8000000000000000 then .integer (-n)
  else .float (-n.toFloat)

def value (n : Numeral) : Except DocumentFault Number :=
  let (significand, count) := absorb 0 n.whole
  let skipped := n.whole.length - count
  match n.fraction with
  | none =>
    if n.exponent = none ∧ skipped = 0 then .ok (integer n.isNegative significand)
    else n.shifted significand skipped
  | some fraction =>
    let (significand, places) := absorb significand fraction
    n.shifted significand ((skipped : Int) - places)

end Numeral

end SemiLex
