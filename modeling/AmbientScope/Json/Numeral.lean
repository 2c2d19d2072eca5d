import AmbientScope.Decimal.Binary64

/-!
# Numbers as read

A numeral without fraction and exponent is an integer when it fits a signed or an unsigned 64-bit word.
Any other numeral, and `-0`, is a double. Its digits are gathered in one unsigned 64-bit word: a digit that
no longer fits is dropped together with all that follow it on its side of the point. The word is then
scaled by a single power of ten, with one rounding for the word and one for the product or quotient.
-/

set_option autoImplicit false

namespace AmbientScope

/-- A number as far as a reader can tell it apart. -/
inductive Numeral where
  | integer (value : Int)
  | real (negative : Bool) (magnitude : Binary64)
  | outOfRange
  deriving DecidableEq, Inhabited

/-- The parts of a numeral, all in decimal digits. -/
structure NumeralText where
  negative : Bool := false
  whole : List Char
  fraction : List Char := []
  exponent : Option (Bool × List Char) := none

namespace Numeral

def digit (c : Char) : Nat := c.toNat - 48

def ofDigits (cs : List Char) : Nat := cs.foldl (fun n c => 10 * n + digit c) 0

/-- The word after taking digits as long as they fit, and how many were left over. -/
def gather (word : Nat) : List Char → Nat × Nat
  | [] => (word, 0)
  | c :: cs =>
    let next := 10 * word + digit c
    if next < UInt64.size then gather next cs else (word, cs.length + 1)

/-- A power of ten that has a double. -/
def powerOfTen (n : Nat) : Binary64 := (Binary64.ofNat? (Nat.pow 10 n)).getD Binary64.zero

/-- `word · 10 ^ exponent`, scaled in steps of at most 308 places; none when it is out of range. -/
def scaled (word : Nat) (exponent : Int) : Option Binary64 := do
  let x ← Binary64.ofNat? word
  if 308 < exponent then
    if x.isZero then pure x else none
  else if 0 ≤ exponent then x.mul? (powerOfTen exponent.toNat)
  else if -308 ≤ exponent then x.div? (powerOfTen (-exponent).toNat)
  else if -616 ≤ exponent then
    (← x.div? (powerOfTen 308)).div? (powerOfTen (-exponent - 308).toNat)
  else pure Binary64.zero

end Numeral

namespace NumeralText
open Numeral

/-- The power of ten written after the digits. -/
def writtenExponent (t : NumeralText) : Int :=
  match t.exponent with
  | none => 0
  | some (true, ds) => -(ofDigits ds : Int)
  | some (false, ds) => ofDigits ds

def real (t : NumeralText) : Numeral :=
  let (word, dropped) := gather 0 t.whole
  let (word, unused) := gather word t.fraction
  let shift : Int := dropped - (t.fraction.length - unused : Nat)
  match scaled word (shift + t.writtenExponent) with
  | some x => .real t.negative x
  | none => .outOfRange

def value (t : NumeralText) : Numeral :=
  let n := ofDigits t.whole
  if t.fraction.isEmpty ∧ t.exponent.isNone then
    if t.negative then
      if 0 < n ∧ n ≤ UInt64.size / 2 then .integer (-n) else t.real
    else if n < UInt64.size then .integer n else t.real
  else t.real

end NumeralText

end AmbientScope
