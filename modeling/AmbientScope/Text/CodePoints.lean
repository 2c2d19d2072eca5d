/-!
# Sets of characters

A property of characters is a list of closed ranges of code points. The properties of this library are those of
Unicode 15.
-/

set_option autoImplicit false

namespace AmbientScope

/-- A set of characters: closed ranges of code points, ascending and apart. -/
abbrev CodePoints := List (Nat × Nat)

def CodePoints.has (points : CodePoints) (c : Char) : Bool :=
  points.any fun (first, last) => first ≤ c.toNat && c.toNat ≤ last

end AmbientScope
