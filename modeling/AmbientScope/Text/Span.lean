/-!
# Source spans

A span is a start offset and a length, both in bytes and both 32-bit words. Its exclusive end
saturates at the largest word instead of wrapping.
-/

set_option autoImplicit false

namespace AmbientScope

/-- A stretch of source text; an unknown place is the empty span at offset 0. -/
structure Span where
  start : UInt32 := 0
  length : UInt32 := 0
  deriving DecidableEq, Inhabited

namespace Span

def limit : Nat := UInt32.size - 1

/-- The exclusive end offset. -/
def stop (s : Span) : Nat := min (s.start.toNat + s.length.toNat) limit

def isEmpty (s : Span) : Bool := s.length == 0

/-- The span as a half-open range, `start..stop`. -/
def range (s : Span) : String := toString s.start.toNat ++ ".." ++ toString s.stop

def describe (s : Span) : String :=
  "TextSpan(" ++ toString s.start.toNat ++ "+" ++ toString s.length.toNat ++ ")"

theorem stop_le_limit (s : Span) : s.stop ≤ limit := Nat.min_le_right _ _

theorem start_le_stop (s : Span) : s.start.toNat ≤ s.stop := by
  have h : s.start.toNat < UInt32.size := s.start.toNat_lt
  simp only [stop, limit]
  omega

end Span

end AmbientScope
