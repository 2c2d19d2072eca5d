import AmbientScope.Decimal.Binary64

/-!
# Shortest decimals

The decimal with the fewest digits that rounds to a given double, the nearest such decimal when there
are several, and the even one of two that are equally near; then its layout as text.

A grid of `n` digits is tested at its two points next to the number: if any point of a grid rounds
to the number, one of these two does.
-/

set_option autoImplicit false

namespace AmbientScope

structure Decimal where
  digits : Nat
  exponent : Int
  deriving DecidableEq, Inhabited

namespace Decimal

/-- Three ratios over one denominator: a number and the ends of the interval that rounds to it. -/
structure Neighbourhood where
  below : Nat
  value : Nat
  above : Nat
  unit : Nat
  closed : Bool

/-- All decimals between the ends round to `x`; the ends do when the significand is even. -/
def neighbourhood (x : Binary64) : Neighbourhood :=
  let gap := if 2 * x.significand = Binary64.precision ∧ -1074 < x.exponent then 1 else 2
  let power := Binary64.scale 1 1 (x.exponent - 2)
  { below := (4 * x.significand - gap) * power.1
    value := 4 * x.significand * power.1
    above := (4 * x.significand + 2) * power.1
    unit := power.2
    closed := x.significand % 2 == 0 }

/-- The exponent of the leading digit of a positive ratio. -/
def leadingExponent (num den : Nat) : Int :=
  ((Nat.toDigits 10 (num * Nat.pow 10 400 / den)).length : Int) - 401

/-- Whether `digits · 10 ^ exponent` lies in the neighbourhood. -/
def Neighbourhood.has (n : Neighbourhood) (digits : Nat) (exponent : Int) : Bool :=
  let point := digits * n.unit * Nat.pow 10 exponent.toNat
  let shift := Nat.pow 10 (-exponent).toNat
  if n.closed then n.below * shift ≤ point && point ≤ n.above * shift
  else n.below * shift < point && point < n.above * shift

/-- The better of the two grid points next to the number, if one rounds to it. -/
def Neighbourhood.pick? (n : Neighbourhood) (exponent : Int) : Option Nat :=
  let num := n.value * Nat.pow 10 (-exponent).toNat
  let den := n.unit * Nat.pow 10 exponent.toNat
  let low := num / den
  match n.has low exponent, n.has (low + 1) exponent with
  | true, true => some (Binary64.roundQuotient num den)
  | true, false => some low
  | false, true => some (low + 1)
  | false, false => none

/-- The first grid with a hit among those with `count`, `count + 1`, … digits. -/
def firstHit (n : Neighbourhood) (leading : Int) : (count fuel : Nat) → Decimal
  | _, 0 => ⟨0, 0⟩
  | count, fuel + 1 =>
    let exponent := leading - count + 1
    match n.pick? exponent with
    | some digits => ⟨digits, exponent⟩
    | none => firstHit n leading (count + 1) fuel

/-- The shortest decimal that rounds to `x`; seventeen digits always suffice. -/
def shortest (x : Binary64) : Decimal :=
  if x.isZero then ⟨0, 0⟩ else
  let n := neighbourhood x
  firstHit n (leadingExponent n.value n.unit) 1 17

/-- Positional from `1e-5` up to below `1e16`, always with a fraction; else with a signed exponent. -/
def layout (d : Decimal) : String :=
  if d.digits = 0 then "0.0" else
  let written := Nat.toDigits 10 d.digits
  let trailing := (written.reverse.takeWhile (· == '0')).length
  let ds := written.take (written.length - trailing)
  let leading : Int := d.exponent + written.length - 1
  let zeros (n : Int) : List Char := List.replicate n.toNat '0'
  String.ofList <|
    if leading < -5 ∨ 15 < leading then
      let mantissa := ds.take 1 ++ (if ds.length = 1 then [] else '.' :: ds.drop 1)
      let sign := if leading < 0 then '-' else '+'
      mantissa ++ 'e' :: sign :: Nat.toDigits 10 leading.natAbs
    else if leading < 0 then '0' :: '.' :: zeros (-leading - 1) ++ ds
    else
      let whole := ds.take (leading.toNat + 1)
      let fraction := ds.drop (leading.toNat + 1)
      whole ++ zeros (leading + 1 - whole.length) ++ '.' :: (if fraction.isEmpty then ['0'] else fraction)

end Decimal

end AmbientScope
