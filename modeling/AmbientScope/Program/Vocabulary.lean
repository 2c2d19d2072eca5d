import AmbientScope.Options.Basic
import AmbientScope.Program.Basic
import AmbientScope.Text.Substring

/-!
# Vocabulary

Which calls act on the ambient scope, and which attributes mark routines and parameters. A routine is marked by
the first attribute that mentions the scope marker; a parameter only by an attribute that names a
marker exactly.
-/

set_option autoImplicit false

namespace AmbientScope

inductive ScopeOperation where
  | push | pop | provide | resolve | freeze | resolveFrozen
  deriving DecidableEq, Inhabited

namespace ScopeOperation

def all : List ScopeOperation := [push, pop, provide, resolve, freeze, resolveFrozen]

def name : ScopeOperation → String
  | push => "Push"
  | pop => "Pop"
  | provide => "Provide"
  | resolve => "Resolve"
  | freeze => "Freeze"
  | resolveFrozen => "ResolveFrozen"

def methodOf (e : Entry) : ScopeOperation → String
  | push => e.push
  | pop => e.pop
  | provide => e.provide
  | resolve => e.resolve
  | freeze => e.freeze
  | resolveFrozen => e.resolveFrozen

end ScopeOperation

/-- What the markers of a routine say. -/
structure RoutineMarkers where
  /-- The label of the scope that the routine runs in, if it has one of its own. -/
  boundary : Option String := none
  freezing : Bool := false
  deriving DecidableEq, Inhabited

inductive ParameterRole where
  | plain | scoped | frozen
  deriving DecidableEq, Inhabited

structure Vocabulary where
  entry : Entry := {}
  scopeMarker : String := "Scope"
  frozenMarker : String := "FrozenScope"
  deriving DecidableEq, Inhabited

/-- The vocabulary of an analysis. -/
def Settings.vocabulary (s : Settings) : Vocabulary :=
  ⟨s.entry, s.scopeMarker, s.frozenScopeMarker⟩

namespace Vocabulary

def method (v : Vocabulary) (op : ScopeOperation) : MethodName :=
  ⟨v.entry.namespaceName, v.entry.typeName, op.methodOf v.entry⟩

/-- The operation that a call names; of two that share a method the earlier one. -/
def operation? (v : Vocabulary) (target : MethodName) : Option ScopeOperation :=
  if target.namespaceName = v.entry.namespaceName ∧ target.typeName = v.entry.typeName then
    ScopeOperation.all.find? fun op => op.methodOf v.entry == target.method
  else none

/-- An attribute without the namespace of the entry point in front and `Attribute` at the end. -/
def markerName (v : Vocabulary) (attr : String) : String :=
  let name := (afterBeginning? (v.entry.namespaceName ++ ".") attr).getD attr
  (beforeEnding? "Attribute" name).getD name

def isMarker (v : Vocabulary) (attr : String) : Bool := mentions attr v.scopeMarker

/-- The attribute that gives a routine a scope of its own. -/
def boundaryAttribute? (v : Vocabulary) (attrs : List String) : Option String :=
  attrs.find? v.isMarker

def isFreezing (v : Vocabulary) (attr : String) : Bool := mentions attr v.frozenMarker

def routineMarkers (v : Vocabulary) (attrs : List String) : RoutineMarkers :=
  match v.boundaryAttribute? attrs with
  | none => {}
  | some attr => ⟨some (v.markerName attr), v.isFreezing attr⟩

/-- The role that an attribute names, the frozen one if both markers are the same. -/
def roleOf? (v : Vocabulary) (attr : String) : Option ParameterRole :=
  let name := v.markerName attr
  if name = v.frozenMarker then some .frozen
  else if name = v.scopeMarker then some .scoped
  else none

def parameterRole (v : Vocabulary) (attrs : List String) : ParameterRole :=
  (attrs.findSome? v.roleOf?).getD .plain

theorem operation?_method (v : Vocabulary) (op : ScopeOperation) :
    ∃ op', v.operation? (v.method op) = some op' ∧ op'.methodOf v.entry = op.methodOf v.entry := by
  have hm : op ∈ ScopeOperation.all := by cases op <;> simp [ScopeOperation.all]
  have hs : (ScopeOperation.all.find? fun o => o.methodOf v.entry == op.methodOf v.entry).isSome := by
    rw [List.find?_isSome]
    exact ⟨op, hm, by simp⟩
  obtain ⟨op', h⟩ := Option.isSome_iff_exists.mp hs
  exact ⟨op', by simpa [operation?, method] using h, by simpa using List.find?_some h⟩

end Vocabulary

end AmbientScope
