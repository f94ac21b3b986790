import StyledEffects.Decimal.Shortest

/-! JSON numbers. Whole numbers that fit in 64 bits, signed or unsigned, are kept as they
are; every other number is taken for a double. -/

namespace StyledEffects.Json

inductive Number where
  | integer (value : Int) (inRange : -Int.pow 2 63 ≤ value ∧ value < Int.pow 2 64)
  | float (value : Decimal.Binary64)
  deriving DecidableEq, Repr

/-- Decimal orders from -5 to 15 are written positionally, others as `1.5e+16` or `5e-324`. -/
def floatLayout : Decimal.Layout := ⟨-5, 15, "e", "+"⟩

namespace Number

def text : Number → String
  | integer value _ => toString value
  | float value => floatLayout.write value

def ofInt? (value : Int) : Option Number :=
  if h : -Int.pow 2 63 ≤ value ∧ value < Int.pow 2 64 then some (integer value h) else none

theorem inRange_natural (n : UInt64) :
    -Int.pow 2 63 ≤ (n.toNat : Int) ∧ (n.toNat : Int) < Int.pow 2 64 := by
  have low : -Int.pow 2 63 ≤ 0 := by decide
  have high : Int.pow 2 64 = 18446744073709551616 := by decide
  have := n.toNat_lt
  omega

def natural (n : UInt64) : Number := integer n.toNat (inRange_natural n)

def units : Number → Int
  | integer value _ => Decimal.Binary64.unitsOf value
  | float value => value.units

/-- Whether the number is less than `2 ^ -52` away from `n`. -/
def isNear : Number → Int → Bool
  | integer value _, n => value = n
  | float value, n => value.isNear n

end Number

end StyledEffects.Json
