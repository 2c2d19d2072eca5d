import AmbientScope.CallGraph.Basic
import AmbientScope.Program.Wrapper

/-!
# Lowering

From a program to its call graph. Bodies are walked in program order, a call before the calls in its arguments,
and a call is hidden when a control construct stands above it. Declared routines come first, in the order of
the program; wrappers follow in the order of their routines, except those whose name is taken already.
-/

set_option autoImplicit false

namespace AmbientScope

namespace Operation

mutual

/-- The calls of an operation in program order, each with whether it is hidden. -/
def calls (hidden : Bool) : Operation → List (Call × Bool)
  | block children => listCalls hidden children
  | invocation call arguments => (call, hidden) :: listCalls hidden arguments
  | conditional condition whenTrue whenFalse =>
    optionCalls true condition ++ whenTrue.calls true ++ optionCalls true whenFalse
  | loop children => listCalls true children
  | switch value arms => optionCalls true value ++ listCalls true arms
  | attempt body handlers cleanup =>
    body.calls true ++ listCalls true handlers ++ optionCalls true cleanup
  | other children => listCalls hidden children

def listCalls (hidden : Bool) : List Operation → List (Call × Bool)
  | [] => []
  | op :: rest => op.calls hidden ++ listCalls hidden rest

def optionCalls (hidden : Bool) : Option Operation → List (Call × Bool)
  | none => []
  | some op => op.calls hidden

end

theorem listCalls_eq_flatMap (hidden : Bool) (ops : List Operation) :
    listCalls hidden ops = ops.flatMap (·.calls hidden) := by
  induction ops with
  | nil => rfl
  | cons op rest ih => rw [listCalls, ih, List.flatMap_cons]

theorem optionCalls_eq_flatMap (hidden : Bool) (op : Option Operation) :
    optionCalls hidden op = op.toList.flatMap (·.calls hidden) := by
  cases op <;> simp [optionCalls]

end Operation

namespace Call

def unknownType : String := "<unknown>"

def defaultLabel : String := "Scope"

def valueKey (c : Call) : ValueKey := ⟨c.valueType.getD unknownType, c.key⟩

def classOf (c : Call) : ScopeOperation → SiteClass
  | .push => .direct (.push (c.label.getD defaultLabel))
  | .provide => .direct (.provide c.valueKey)
  | .resolve => .direct (.resolve c.valueKey)
  | op => .inert op

end Call

namespace Lowering

/-- The routine with a body that has the given name. -/
def callee? (routines : List Declaration) (name : String) : Option RoutineId :=
  match routines.findIdx? (·.qualifiedName == name) with
  | none => none
  | some id => if (routines[id]?.bind Declaration.body).isSome then some id else none

/-- Classify a call: operations of the entry point first, then routines by their name. -/
def classify (v : Vocabulary) (routines : List Declaration) (c : Call) : SiteClass :=
  match v.operation? c.target with
  | some op => c.classOf op
  | none =>
    match callee? routines c.target.qualified with
    | some id => .call id
    | none => .external

def site (v : Vocabulary) (routines : List Declaration) (index : Nat) (c : Call × Bool) : Site where
  index := index
  kind := classify v routines c.1
  hidden := c.2
  span := c.1.span
  target := c.1.target.qualified

def sites (v : Vocabulary) (routines : List Declaration) (body : Option Operation) : List Site :=
  (Operation.optionCalls false body).mapIdx (site v routines)

def routine (v : Vocabulary) (routines : List Declaration) (declared : Nat) (id : RoutineId)
    (d : Declaration) : Routine where
  id := id
  name := d.qualifiedName
  file := d.file
  span := d.span
  markers := v.routineMarkers d.attributes
  sites := sites v routines d.body
  hasBody := d.body.isSome
  synthesized := declared ≤ id

def duplicate? (earlier : List String) : List String → Option String
  | [] => none
  | name :: rest => if name ∈ earlier then some name else duplicate? (name :: earlier) rest

/-- The declarations whose name is neither taken nor that of an earlier one. -/
def fresh (taken : List String) : List Declaration → List Declaration
  | [] => []
  | d :: rest =>
    if d.qualifiedName ∈ taken then fresh taken rest
    else d :: fresh (d.qualifiedName :: taken) rest

/-- The wrappers that join the graph. -/
def wrappers (s : Settings) (declared : List Declaration) : List Declaration :=
  if s.synthesizeWrappers then
    fresh (declared.map Declaration.qualifiedName)
      (declared.filterMap fun d => d.wrapper? s.vocabulary s.wrapperSuffix)
  else []

/-- The graph of declarations with distinct names, of which so many were declared. -/
def graph (v : Vocabulary) (declared : Nat) (routines : List Declaration) : CallGraph :=
  ⟨routines.mapIdx (routine v routines declared)⟩

end Lowering

/-- The call graph of a program; refused when two declarations share a name. -/
def CallGraph.ofProgram (s : Settings) (p : Program) : Except Failure CallGraph :=
  match Lowering.duplicate? [] (p.routines.map Declaration.qualifiedName) with
  | some name => .error (.duplicateRoutine name)
  | none =>
    .ok (Lowering.graph s.vocabulary p.routines.length
      (p.routines ++ Lowering.wrappers s p.routines))

end AmbientScope
