/-!
# Name tables

An interner numbers distinct names from 0 in order of first appearance, so that two handles of one
table are equal exactly when their names are.
-/

set_option autoImplicit false

namespace AmbientScope

/-- Distinct names in order of first appearance; a handle is a position. -/
structure Interner where
  names : List String := []
  distinct : names.Nodup := by simp

namespace Interner

def empty : Interner := {}

def size (t : Interner) : Nat := t.names.length

def isEmpty (t : Interner) : Bool := t.names.isEmpty

def get? (t : Interner) (name : String) : Option Nat := t.names.idxOf? name

def resolve? (t : Interner) (handle : Nat) : Option String := t.names[handle]?

/-- The handle of `name`, which is added at the end when it is new. -/
def intern (t : Interner) (name : String) : Nat × Interner :=
  if h : name ∈ t.names then (t.names.idxOf name, t)
  else (t.size, ⟨t.names ++ [name], by
    rw [List.nodup_append]
    refine ⟨t.distinct, by simp, ?_⟩
    rintro a ha b hb rfl
    exact h (List.mem_singleton.mp hb ▸ ha)⟩)

def describeHandle (handle : Nat) : String := "InternedString(" ++ toString handle ++ ")"

def describe (t : Interner) : String := "StringInterner(" ++ toString t.size ++ " names)"

end Interner

end AmbientScope
