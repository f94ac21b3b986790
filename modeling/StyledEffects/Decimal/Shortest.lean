import StyledEffects.Decimal.Binary64

/-! The shortest decimal that reads back as a given double, and its written form. For one
digit, then two, and so on, the two neighbours of the double on the grid of decimals with
that many digits are tried; the first grid with a neighbour that rounds to the double
gives the digits, and of two such neighbours the nearer one is taken. -/

namespace StyledEffects.Decimal

/-- The decimal `digits * 10 ^ power`. -/
structure Expansion where
  digits : Nat
  power : Int
  deriving DecidableEq, Repr

/-- The numbers that round to a double: all from `low / den` to `high / den` around
`value / den`, the two ends among them if `closed`. -/
structure Interval where
  low : Nat
  value : Nat
  high : Nat
  den : Nat
  closed : Bool

/-- Halfway to the neighbouring doubles on both sides. Below a power of two the next double
is half as far away. -/
def Binary64.interval (x : Binary64) : Interval :=
  let m := x.significand
  let below := if m = Nat.pow 2 52 ∧ -1074 < x.exponent then 1 else 2
  let shift := x.exponent - 2
  let up := Nat.pow 2 shift.toNat
  ⟨(4 * m - below) * up, 4 * m * up, (4 * m + 2) * up, Nat.pow 2 (-shift).toNat, m % 2 = 0⟩

namespace Interval

def compareTo (i : Interval) (digits : Nat) (power : Int) (num : Nat) : Ordering :=
  compare (digits * Nat.pow 10 power.toNat * i.den) (num * Nat.pow 10 (-power).toNat)

def contains (i : Interval) (digits : Nat) (power : Int) : Bool :=
  match i.compareTo digits power i.low, i.compareTo digits power i.high with
  | .gt, .lt => true
  | .eq, _ => i.closed
  | _, .eq => i.closed
  | _, _ => false

/-- The largest `e` with `10 ^ e ≤ value`, for a positive value. -/
def order (i : Interval) : Int :=
  let width (n : Nat) : Int := (Nat.toDigits 10 n).length
  let e := width i.value - width i.den
  if i.compareTo 1 e i.value = .gt then e - 1 else e

/-- The member of the interval on the grid of multiples of `10 ^ power` that is nearest to
the value, if there is one; of two equally near the even one. -/
def onGrid (i : Interval) (power : Int) : Option Nat :=
  let scaledNum := i.value * Nat.pow 10 (-power).toNat
  let scaledDen := i.den * Nat.pow 10 power.toNat
  let d := scaledNum / scaledDen
  let r := scaledNum % scaledDen
  match i.contains d power, i.contains (d + 1) power with
  | true, true =>
    if 2 * r < scaledDen then some d else if scaledDen < 2 * r then some (d + 1)
    else some (d + d % 2)
  | true, false => some d
  | false, true => some (d + 1)
  | false, false => none

def search (i : Interval) : Nat → Int → Expansion
  | 0, power => ⟨i.value / i.den, power⟩
  | count + 1, power =>
    match i.onGrid power with
    | some d => ⟨d, power⟩
    | none => search i count (power - 1)

end Interval

/-- The same decimal without zeros at the end of its digits; `fuel` bounds their number. -/
def Expansion.trim : Nat → Expansion → Expansion
  | 0, d => d
  | fuel + 1, d =>
    if d.digits ≠ 0 ∧ d.digits % 10 = 0 then trim fuel ⟨d.digits / 10, d.power + 1⟩ else d

/-- The shortest decimal that rounds to the magnitude of a nonzero double. Seventeen digits
are always enough. -/
def Binary64.shortest (x : Binary64) : Expansion :=
  let i := x.interval
  (i.search 17 i.order).trim 20

/-- How a decimal is written: positionally when its order is within the bounds, otherwise
with an exponent. -/
structure Layout where
  leastOrder : Int
  greatestOrder : Int
  exponentMark : String
  positiveSign : String

/-- The digits around the point. At least one digit stands on either side. -/
def positional (digits : String) (order : Int) : String :=
  let count : Int := digits.length
  if order < 0 then "0." ++ String.ofList (List.replicate (-order - 1).toNat '0') ++ digits
  else if count ≤ order + 1 then
    digits ++ String.ofList (List.replicate (order + 1 - count).toNat '0') ++ ".0"
  else
    let whole := (order + 1).toNat
    String.ofList (digits.toList.take whole) ++ "." ++ String.ofList (digits.toList.drop whole)

def scientific (layout : Layout) (digits : String) (order : Int) : String :=
  let mantissa := match digits.toList with
    | [] => ""
    | [d] => String.ofList [d]
    | d :: rest => String.ofList (d :: '.' :: rest)
  mantissa ++ layout.exponentMark ++
    (if order < 0 then toString order else layout.positiveSign ++ toString order)

def Layout.write (layout : Layout) (x : Binary64) : String :=
  let sign := if x.negative then "-" else ""
  if x.isZero then sign ++ "0.0"
  else
    let d := x.shortest
    let digits := toString d.digits
    let order := d.power + (digits.length - 1 : Int)
    sign ++ (if layout.leastOrder ≤ order ∧ order ≤ layout.greatestOrder
      then positional digits order else scientific layout digits order)

end StyledEffects.Decimal
