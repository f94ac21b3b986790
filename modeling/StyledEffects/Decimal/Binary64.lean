/-! Doubles as exact numbers. A finite double is a sign, a significand of at most 53 bits
and a power of two; the significand is as large as the power allows, so each double has
one such form. Rounding goes to the nearest double, a tie to the even significand. -/

namespace StyledEffects.Decimal

/-- The number `± significand * 2 ^ exponent`. -/
structure Binary64 where
  negative : Bool
  significand : Nat
  exponent : Int
  significand_lt : significand < Nat.pow 2 53
  le_exponent : -1074 ≤ exponent
  exponent_le : exponent ≤ 971
  normal : Nat.pow 2 52 ≤ significand ∨ exponent = -1074
  deriving DecidableEq, Repr

namespace Binary64

def zero (negative : Bool) : Binary64 :=
  ⟨negative, 0, -1074, by decide, by decide, by decide, Or.inr rfl⟩

def isZero (x : Binary64) : Bool := x.significand = 0

/-- The double as a multiple of the least positive one, `2 ^ -1074`. -/
def units (x : Binary64) : Int :=
  let magnitude : Int := x.significand * Int.pow 2 (x.exponent + 1074).toNat
  if x.negative then -magnitude else magnitude

def unitsOf (n : Int) : Int := n * Int.pow 2 1074

/-- Whether the double is less than `2 ^ -52` away from `n`. -/
def isNear (x : Binary64) (n : Int) : Bool :=
  (x.units - unitsOf n).natAbs < Nat.pow 2 1022

/-- The whole number nearest to `num / den`; of two, the even one. -/
def roundHalfEven (num den : Nat) : Nat :=
  let q := num / den
  let r := num % den
  if 2 * r < den then q else if den < 2 * r then q + 1 else q + q % 2

/-- The largest `e` with `2 ^ e ≤ num / den`, for positive `num` and `den`. -/
def binaryOrder (num den : Nat) : Int :=
  let e : Int := Nat.log2 num - Nat.log2 den
  let reached : Bool :=
    if 0 ≤ e then den * Nat.pow 2 e.toNat ≤ num else den ≤ num * Nat.pow 2 (-e).toNat
  if reached then e else e - 1

def ofParts? (negative : Bool) (significand : Nat) (exponent : Int) : Option Binary64 :=
  if h : significand < Nat.pow 2 53 ∧ -1074 ≤ exponent ∧ exponent ≤ 971 ∧
      (Nat.pow 2 52 ≤ significand ∨ exponent = -1074) then
    some ⟨negative, significand, exponent, h.1, h.2.1, h.2.2.1, h.2.2.2⟩
  else none

/-- The double nearest to `± num / den`; nothing if that is beyond the largest double. -/
def nearest (negative : Bool) (num den : Nat) : Option Binary64 :=
  if num = 0 then some (zero negative)
  else
    let exponent := max (-1074) (binaryOrder num den - 52)
    let significand :=
      if 0 ≤ exponent then roundHalfEven num (den * Nat.pow 2 exponent.toNat)
      else roundHalfEven (num * Nat.pow 2 (-exponent).toNat) den
    if significand = Nat.pow 2 53 then ofParts? negative (Nat.pow 2 52) (exponent + 1)
    else ofParts? negative significand exponent

def nearestScaled (negative : Bool) (num den : Nat) (power : Int) : Option Binary64 :=
  if 0 ≤ power then nearest negative (num * Nat.pow 2 power.toNat) den
  else nearest negative num (den * Nat.pow 2 (-power).toNat)

def times? (x y : Binary64) : Option Binary64 :=
  nearestScaled (x.negative != y.negative) (x.significand * y.significand) 1
    (x.exponent + y.exponent)

def over? (x y : Binary64) : Option Binary64 :=
  nearestScaled (x.negative != y.negative) x.significand y.significand (x.exponent - y.exponent)

/-- The double nearest to a power of ten. The last one that there is a double for is the
308th. -/
def tenTo? (n : Nat) : Option Binary64 := nearest false (Nat.pow 10 n) 1

/-- Divides by the 308th power of ten that many times, unless zero is reached before. -/
def shrink? : Nat → Binary64 → Option Binary64
  | 0, x => some x
  | times + 1, x => if x.isZero then some x else do
    let ten ← tenTo? 308
    shrink? times (← x.over? ten)

/-- Multiplies by a power of ten, which is a double itself, or divides by one. What would be
beyond the largest double is nothing. -/
def scale? (power : Int) (x : Binary64) : Option Binary64 := do
  if 0 ≤ power then
    if x.isZero then some x
    else if 308 < power then none
    else x.times? (← tenTo? power.toNat)
  else
    let times := (power.natAbs - 1) / 308
    let x ← shrink? times x
    if x.isZero then some x else x.over? (← tenTo? (power.natAbs - 308 * times))

/-- The double that `± digits * 10 ^ power` is taken for. It is not always the nearest one, as
the digits, the power and the product are each rounded. -/
def ofDecimal? (negative : Bool) (digits : Nat) (power : Int) : Option Binary64 := do
  scale? power (← nearest negative digits 1)

end Binary64

end StyledEffects.Decimal
