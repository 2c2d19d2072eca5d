import AmbientScope.FirstWrite

/-!
# Scope stores

All frames ever made, each linked to the older frame that encloses it. A context is the frame that it points at;
pushing makes a new frame and points there, popping points back to the enclosing one. A frame is never
dropped and no binding of it is ever replaced, so contexts that share frames cannot take anything
from one another.
-/

set_option autoImplicit false

namespace AmbientScope

abbrev FrameId := Nat

structure Frame (κ α : Type) where
  label : String
  parent : Option FrameId := none
  /-- The distance from the root. -/
  depth : Nat := 0
  bindings : FirstWrite κ α := FirstWrite.empty
  /-- The number that the frame is known by, once someone has asked for it. -/
  identity : Option Nat := none

structure Store (κ α : Type) where
  frames : List (Frame κ α) := []
  /-- How many frames have a number. -/
  numbered : Nat := 0

namespace Store
variable {κ α : Type}

def empty : Store κ α := {}

instance : Inhabited (Store κ α) := ⟨empty⟩

def defaultLabel : String := "Scope"

def frame? (s : Store κ α) (id : FrameId) : Option (Frame κ α) := s.frames[id]?

def parent? (s : Store κ α) (id : FrameId) : Option FrameId := (s.frame? id).bind Frame.parent

def depth (s : Store κ α) (id : FrameId) : Nat := ((s.frame? id).map Frame.depth).getD 0

def label (s : Store κ α) (id : FrameId) : String := ((s.frame? id).map Frame.label).getD ""

/-- Add a frame; it gets the next position. -/
def add (s : Store κ α) (f : Frame κ α) : FrameId × Store κ α :=
  (s.frames.length, { s with frames := s.frames ++ [f] })

def root (s : Store κ α) (label : String) : FrameId × Store κ α := s.add { label := label }

def push (s : Store κ α) (current : FrameId) (label : String) : FrameId × Store κ α :=
  s.add { label := label, parent := some current, depth := s.depth current + 1 }

/-- The enclosing frame; a root stays where it is. -/
def pop (s : Store κ α) (current : FrameId) : FrameId := (s.parent? current).getD current

/-- A frame and all that enclose it, innermost first. -/
def ancestors (s : Store κ α) (id : FrameId) : List FrameId :=
  match s.parent? id with
  | some parent => if parent < id then id :: s.ancestors parent else [id]
  | none => [id]
termination_by id

/-- The number of a frame, which it gets when it is first asked for. -/
def identify (s : Store κ α) (id : FrameId) : Nat × Store κ α :=
  match s.frame? id with
  | none => (0, s)
  | some f =>
    match f.identity with
    | some n => (n, s)
    | none =>
      let n := s.numbered + 1
      (n, { frames := s.frames.set id { f with identity := some n }, numbered := n })

variable [DecidableEq κ]

/-- The value that a frame itself binds. -/
def local? (s : Store κ α) (id : FrameId) (key : κ) : Option α :=
  (s.frame? id).bind fun f => f.bindings.get? key

/-- Bind a value in a frame unless the key is bound there; the answer says whether it was bound. -/
def provide (s : Store κ α) (id : FrameId) (key : κ) (value : α) : Bool × Store κ α :=
  match s.frame? id with
  | none => (false, s)
  | some f =>
    if f.bindings.contains key then (false, s)
    else (true, { s with frames := s.frames.set id { f with bindings := f.bindings.insert key value } })

/-- The value bound in the innermost frame that binds the key. -/
def resolve? (s : Store κ α) (current : FrameId) (key : κ) : Option α :=
  (s.ancestors current).findSome? fun id => s.local? id key

end Store

end AmbientScope
