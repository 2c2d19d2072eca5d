import AmbientScope.CallGraph.Lowering
import AmbientScope.Flow.Detection

/-!
# Analyses

An analysis checks every routine with a body, in the order of the graph and over one cache, and sorts what they
report.
-/

set_option autoImplicit false

namespace AmbientScope

structure AnalysisResult where
  report : Report
  /-- The number of routines checked. -/
  checked : Nat
  /-- The number of summaries computed along the way. -/
  cached : Nat
  deriving Inhabited

def checkAll (g : CallGraph) (rules : Rules) (cancelled : Bool) (v : View) :
    List RoutineId → Except Failure Report × View
  | [] => (.ok [], v)
  | id :: rest =>
    match check g rules cancelled v id with
    | (.error f, v) => (.error f, v)
    | (.ok report, v) =>
      match checkAll g rules cancelled v rest with
      | (.error f, v) => (.error f, v)
      | (.ok reports, v) => (.ok (report ++ reports), v)

def analyze (g : CallGraph) (rules : Rules) (cancelled : Bool) : Except Failure AnalysisResult :=
  if cancelled then .error .cancelled
  else
    match checkAll g rules cancelled {} g.bodies with
    | (.error f, _) => .error f
    | (.ok report, v) =>
      .ok { report := report.sort, checked := g.bodies.length, cached := v.cache.size }

def analyzeProgram (s : Settings) (p : Program) (cancelled : Bool) :
    Except Failure AnalysisResult := do
  let g ← CallGraph.ofProgram s p
  analyze g s.rules cancelled

end AmbientScope
