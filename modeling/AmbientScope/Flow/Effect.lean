import AmbientScope.CallGraph.Basic
import AmbientScope.FirstWrite

/-!
# Effects and summaries

An effect is an action on the ambient scope together with its place and whether it may fail to run. A summary
lists the effects of a routine in order, those of its callees spliced in where they are called. The first
summary that is published for a routine stays.
-/

set_option autoImplicit false

namespace AmbientScope

inductive Origin where
  | site (routine : RoutineId) (index : Nat)
  /-- The push in front of the effects of a routine with a scope of its own. -/
  | boundary (routine : RoutineId)
  deriving DecidableEq, Inhabited

structure Effect where
  action : Action
  /-- Whether some path through the routine passes the effect by. -/
  hidden : Bool
  origin : Origin
  deriving DecidableEq, Inhabited

namespace Effect

/-- The effect as seen through a call, which hides it when it is hidden itself. -/
def through (callHidden : Bool) (e : Effect) : Effect := { e with hidden := e.hidden || callHidden }

@[simp] theorem through_false (e : Effect) : e.through false = e := by
  simp [through]

theorem through_through (a b : Bool) (e : Effect) :
    (e.through a).through b = e.through (a || b) := by
  simp [through, Bool.or_assoc]

end Effect

abbrev Summary := List Effect

namespace Summary

/-- The summary of a callee where it is called. -/
def splice (callHidden : Bool) (s : Summary) : Summary := s.map (Effect.through callHidden)

/-- The effects of a routine with the push of its own scope, if it has one, in front. -/
def bounded (g : CallGraph) (id : RoutineId) (s : Summary) : Summary :=
  match g.boundary? id with
  | some label => ⟨.push label, false, .boundary id⟩ :: s
  | none => s

end Summary

def Site.effect (s : Site) (routine : RoutineId) (action : Action) : Effect :=
  ⟨action, s.hidden, .site routine s.index⟩

abbrev SummaryCache := FirstWrite RoutineId Summary

namespace SummaryCache

/-- Publish a summary; the answer is the one that is in the cache from then on. -/
def publish (c : SummaryCache) (id : RoutineId) (s : Summary) : Summary × SummaryCache :=
  ((c.get? id).getD s, c.insert id s)

theorem get?_publish (c : SummaryCache) (id : RoutineId) (s : Summary) :
    (c.publish id s).2.get? id = some (c.publish id s).1 := by
  simp [publish, FirstWrite.get?_insert]

end SummaryCache

end AmbientScope
