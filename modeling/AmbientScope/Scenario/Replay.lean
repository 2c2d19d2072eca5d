import AmbientScope.Scenario.Basic
import AmbientScope.Scope.Store

/-!
# Replay

Running a scenario's unconditional code against a scope store. Control constructs are passed over, because it is not
known which branch runs. A routine with a scope of its own runs in a frame of its own, and a routine that is already
running is not entered again. The outcome lists where, in the body of the entry, the store refused a provide
because the frame held the key already.
-/

set_option autoImplicit false

namespace AmbientScope

namespace Replay

structure State where
  store : Store String Unit
  current : FrameId
  /-- The names of the routines that are running. -/
  active : List String := []
  rejected : List UInt32 := []

namespace State

def start : State :=
  let (id, store) := Store.root Store.empty Store.defaultLabel
  { store := store, current := id }

def push (s : State) (label : String) : State :=
  let (id, store) := s.store.push s.current label
  { s with store := store, current := id }

def pop (s : State) : State := { s with current := s.store.pop s.current }

/-- Bind a key in the current frame; a refusal is noted at the given place. -/
def provide (s : State) (key : String) (offset : UInt32) : State :=
  let (bound, store) := s.store.provide s.current key ()
  { s with
    store := store
    rejected := if bound then s.rejected else s.rejected ++ [offset] }

def enter (s : State) (name : String) : State := { s with active := name :: s.active }

def leave (s : State) (name : String) : State := { s with active := s.active.filter (· ≠ name) }

end State

/-- What a provide is bound under: the type, and the key in brackets if there is one. -/
def bindingName (c : Call) : String :=
  match c.key with
  | some key => c.valueType.getD "" ++ "[" ++ key ++ "]"
  | none => c.valueType.getD ""

/-- How a replay runs a routine: by name, reporting refusals at the given place. -/
abbrev Routines := String → UInt32 → State → State

/-- Run one call apart from its arguments. -/
def invoke (v : Vocabulary) (routines : Routines) (c : Call) (offset : UInt32) (s : State) : State :=
  match v.operation? c.target with
  | some .push => s.push (c.label.getD Store.defaultLabel)
  | some .pop => s.pop
  | some .provide => s.provide (bindingName c) offset
  | some _ => s
  | none => routines c.target.qualified offset s

mutual

/-- Run the unconditional code of an operation; refusals are reported at a given place or, without one, where
they happen. -/
def run (v : Vocabulary) (routines : Routines) (reported : Option UInt32) :
    Operation → State → State
  | .block children, s => runAll v routines reported children s
  | .other children, s => runAll v routines reported children s
  | .invocation c arguments, s =>
    runAll v routines reported arguments (invoke v routines c (reported.getD c.span.start) s)
  | .conditional _ _ _, s => s
  | .loop _, s => s
  | .switch _ _, s => s
  | .attempt _ _ _, s => s

def runAll (v : Vocabulary) (routines : Routines) (reported : Option UInt32) :
    List Operation → State → State
  | [], s => s
  | op :: rest, s => runAll v routines reported rest (run v routines reported op s)

end

/-- Run a body in a frame of its own if the attributes ask for one. -/
def inScope (v : Vocabulary) (attrs : List String) (body : State → State) (s : State) : State :=
  match v.boundaryAttribute? attrs with
  | some attr => (body (s.push (v.markerName attr))).pop
  | none => body s

/-- The routine of a name; of several the last. -/
def find? (routines : List Declaration) (name : String) : Option Declaration :=
  routines.reverse.find? (·.qualifiedName == name)

/-- Run a routine, with calls nested at most so deep. -/
def runRoutine (v : Vocabulary) (routines : List Declaration) :
    (depth : Nat) → String → Option UInt32 → State → State
  | 0, _, _, s => s
  | depth + 1, name, reported, s =>
    match find? routines name with
    | none => s
    | some d =>
      match d.body with
      | none => s
      | some body =>
        if name ∈ s.active then s
        else
          let nested : Routines := fun callee offset => runRoutine v routines depth callee (some offset)
          (inScope v d.attributes (run v nested reported body) (s.enter name)).leave name

end Replay

/-- The places in the body of the entry where the store refuses a provide. No two routines that run at once have
the same name, so calls nest no deeper than there are routines. -/
def Scenario.replay (s : Scenario) (entry : String) : List UInt32 :=
  let name := Scenario.namespaceName ++ "." ++ Scenario.typeName ++ "." ++ entry
  (Replay.runRoutine {} s.routines (s.routines.length + 1) name none Replay.State.start).rejected

end AmbientScope
