import AmbientScope.Program.Vocabulary

/-!
# Call graphs

A call graph holds, for every routine, its calls in program order, each classified once and for all: an action on
the ambient scope, an operation without effect on it, a call of a routine whose body is known, or a call
that leads out of the graph. A routine is referred to by its position.
-/

set_option autoImplicit false

namespace AmbientScope

/-- What a value is provided and resolved by: its type and an optional name. -/
structure ValueKey where
  typeName : String
  name : Option String := none
  deriving DecidableEq, Inhabited

namespace ValueKey

def describe (k : ValueKey) : String :=
  match k.name with
  | none => k.typeName
  | some name => k.typeName ++ "[\"" ++ name ++ "\"]"

end ValueKey

/-- An action on the ambient scope. Leaving a scope is not one: a push bounds all later
provides, whether or not its scope has been left. -/
inductive Action where
  | push (label : String)
  | provide (key : ValueKey)
  | resolve (key : ValueKey)
  deriving DecidableEq, Inhabited

namespace Action

def isPush : Action → Bool
  | push _ => true
  | _ => false

def provided? : Action → Option ValueKey
  | provide key => some key
  | _ => none

def describe : Action → String
  | push label => "Push(" ++ label ++ ")"
  | provide key => "Provide(" ++ key.describe ++ ")"
  | resolve key => "Resolve(" ++ key.describe ++ ")"

end Action

abbrev RoutineId := Nat

/-- What a call does to the ambient scope. -/
inductive SiteClass where
  | direct (action : Action)
  /-- An operation of the entry point that counts for nothing. -/
  | inert (op : ScopeOperation)
  | call (callee : RoutineId)
  | external
  deriving DecidableEq, Inhabited

/-- A classified call. -/
structure Site where
  /-- Its position in the program order of the routine. -/
  index : Nat
  kind : SiteClass
  /-- Whether a control construct stands around it. -/
  hidden : Bool
  span : Span
  /-- The qualified name of the method called. -/
  target : String
  deriving DecidableEq, Inhabited

structure Routine where
  id : RoutineId
  name : String
  file : Option String
  span : Span
  markers : RoutineMarkers
  sites : List Site
  hasBody : Bool
  /-- Whether the routine is a wrapper that was generated. -/
  synthesized : Bool
  deriving DecidableEq, Inhabited

structure CallGraph where
  routines : List Routine
  deriving Inhabited

namespace CallGraph

def size (g : CallGraph) : Nat := g.routines.length

def isEmpty (g : CallGraph) : Bool := g.routines.isEmpty

def routine? (g : CallGraph) (id : RoutineId) : Option Routine := g.routines[id]?

def sites (g : CallGraph) (id : RoutineId) : List Site := ((g.routine? id).map Routine.sites).getD []

/-- The label of the scope that a routine runs in, if it has one of its own. -/
def boundary? (g : CallGraph) (id : RoutineId) : Option String :=
  (g.routine? id).bind fun r => r.markers.boundary

def name (g : CallGraph) (id : RoutineId) : String := ((g.routine? id).map Routine.name).getD ""

def lookup? (g : CallGraph) (name : String) : Option RoutineId :=
  g.routines.findIdx? (·.name == name)

/-- The routines with a body, in order. -/
def bodies (g : CallGraph) : List RoutineId := (g.routines.filter Routine.hasBody).map Routine.id

end CallGraph

/-- Why a request about a program has no answer. -/
inductive Failure where
  | cancelled
  | duplicateRoutine (name : String)
  | unknownRoutine (name : String)
  deriving DecidableEq, Inhabited

namespace Failure

def message : Failure → String
  | cancelled => "analysis cancelled"
  | duplicateRoutine name => "routine '" ++ name ++ "' is declared more than once"
  | unknownRoutine name => "unknown routine '" ++ name ++ "'"

end Failure

namespace CallGraph

/-- The routine with a qualified name, which has to exist. -/
def require (g : CallGraph) (name : String) : Except Failure RoutineId :=
  match g.lookup? name with
  | some id => .ok id
  | none => .error (.unknownRoutine name)

end CallGraph

end AmbientScope
