/-!
# Double-precision magnitudes

Finite non-negative numbers `significand · 2 ^ exponent` with at most 53 significant bits and an
exponent of at least -1074. Results are computed exactly as a ratio and rounded once, to the nearest
such number and to the even one when two are equally near.
-/

set_option autoImplicit false

namespace AmbientScope

structure Binary64 where
  significand : Nat
  exponent : Int
  deriving DecidableEq, Inhabited

namespace Binary64

/-- Every significand is below this power of two. -/
def precision : Nat := 1 <<< 53

def zero : Binary64 := ⟨0, 0⟩

def isZero (x : Binary64) : Bool := x.significand == 0

/-- The quotient rounded to the nearest natural number, a half going to the even one. -/
def roundQuotient (num den : Nat) : Nat :=
  let q := num / den
  let r := num % den
  if 2 * r < den then q
  else if den < 2 * r then q + 1
  else if q % 2 = 0 then q else q + 1

/-- The ratio of `num · 2 ^ e` and `den` with the power on the side where it is whole. -/
def scale (num den : Nat) (e : Int) : Nat × Nat :=
  if 0 ≤ e then (num <<< e.toNat, den) else (num, den <<< (-e).toNat)

/-- The nearest double to `num / den`; none when it lies beyond the largest one. -/
def ofRatio (num den : Nat) : Option Binary64 :=
  if num = 0 then some zero else
  let low : Int := (num.log2 : Int) - den.log2 - 53
  let trial := scale num den (-low)
  let e := max (if precision ≤ trial.1 / trial.2 then low + 1 else low) (-1074)
  let ratio := scale num den (-e)
  let q := roundQuotient ratio.1 ratio.2
  let x : Binary64 := if q = precision then ⟨precision / 2, e + 1⟩ else ⟨q, e⟩
  if 971 < x.exponent then none else some x

def ofNat? (n : Nat) : Option Binary64 := ofRatio n 1

def mul? (x y : Binary64) : Option Binary64 :=
  let ratio := scale (x.significand * y.significand) 1 (x.exponent + y.exponent)
  ofRatio ratio.1 ratio.2

def div? (x y : Binary64) : Option Binary64 :=
  let ratio := scale x.significand y.significand (x.exponent - y.exponent)
  ofRatio ratio.1 ratio.2

end Binary64

end AmbientScope
