import AmbientScope.Diagnostic.Report
import AmbientScope.Flow.Walk

/-!
# Detection

Each routine is checked on its own, against a fresh trace of the effects that its sites contribute. A provide that
is sure to run collides with an earlier such provide of the same key unless a push stands between them;
nothing closes a scope again. A site with a hidden effect is reported once. All diagnostics point at
sites of the routine that is checked, however deep in a callee the effect was.
-/

set_option autoImplicit false

namespace AmbientScope

structure TraceEntry where
  effect : Effect
  site : Nat
  deriving DecidableEq, Inhabited

namespace TraceEntry

def isPush (e : TraceEntry) : Bool := e.effect.action.isPush

/-- Whether the entry is a provide of the key that is sure to run. -/
def provides (e : TraceEntry) (key : ValueKey) : Bool :=
  !e.effect.hidden && e.effect.action.provided? == some key

end TraceEntry

/-- The effects met so far, latest first. -/
abbrev Trace := List TraceEntry

namespace Trace

/-- The site of the latest provide of the key back to the nearest push. -/
def previousProvide? (t : Trace) (key : ValueKey) : Option Nat :=
  ((t.takeWhile fun e => !e.isPush).find? (·.provides key)).map TraceEntry.site

def record (t : Trace) (s : Site) (effects : List Effect) : Trace :=
  (effects.map fun e => ⟨e, s.index⟩).reverse ++ t

end Trace

namespace Detection

def atSite (r : Routine) (s : Site) (t : Template) (args : List String) : Diagnostic :=
  Diagnostic.located r.file s.span t args

def echo (rules : Rules) (r : Routine) (s : Site) (e : Effect) : Report :=
  if rules.debugEcho then [atSite r s .debugEcho [e.action.describe]] else []

def hiddenFlow (rules : Rules) (r : Routine) (s : Site) (e : Effect) : Diagnostic :=
  let d := atSite r s .hiddenEffect [e.action.describe, r.name]
  if rules.hiddenFlowAsError then d.withSeverity .error else d

def duplicate (r : Routine) (s : Site) (key : ValueKey) (previous : Nat) : Diagnostic :=
  let d := atSite r s .alreadyProvided [key.describe]
  match r.sites[previous]? with
  | some p => d.withRelated (atSite r p .previousProvide [key.describe])
  | none => d

/-- What is wrong with an effect; `reported` says that its site has been reported as hidden. -/
def findings (rules : Rules) (r : Routine) (s : Site) (t : Trace) (reported : Bool) (e : Effect) :
    Report :=
  if e.hidden then
    if rules.reportHiddenFlow && !reported then [hiddenFlow rules r s e] else []
  else
    match e.action.provided? with
    | none => []
    | some key =>
      match t.previousProvide? key with
      | some previous => [duplicate r s key previous]
      | none => []

/-- The diagnostics of the effects of one site. -/
def siteReport (rules : Rules) (r : Routine) (s : Site) (t : Trace) (reported : Bool) :
    List Effect → Report
  | [] => []
  | e :: rest =>
    echo rules r s e ++ findings rules r s t reported e ++
      siteReport rules r s (⟨e, s.index⟩ :: t) (reported || e.hidden) rest

def contribution (g : CallGraph) (cancelled : Bool) (v : View) (id : RoutineId) (s : Site) :
    Except Failure (List Effect) × View :=
  match s.kind with
  | .direct action => (.ok [s.effect id action], v)
  | .call callee =>
    match summarize g cancelled v callee with
    | (.ok summary, v) => (.ok (summary.splice s.hidden), v)
    | (.error f, v) => (.error f, v)
  | .inert _ => (.ok [], v)
  | .external => (.ok [], v)

/-- Check sites in order; `report` holds the diagnostics so far. -/
def checkSites (g : CallGraph) (rules : Rules) (cancelled : Bool) (r : Routine) (t : Trace)
    (report : Report) (v : View) : List Site → Except Failure Report × View
  | [] => (.ok report, v)
  | s :: rest =>
    match contribution g cancelled v r.id s with
    | (.error f, v) => (.error f, v)
    | (.ok effects, v) =>
      checkSites g rules cancelled r (t.record s effects)
        (report ++ siteReport rules r s t false effects) v rest

end Detection

def check (g : CallGraph) (rules : Rules) (cancelled : Bool) (v : View) (id : RoutineId) :
    Except Failure Report × View :=
  if cancelled then (.error .cancelled, v)
  else
    match g.routine? id with
    | none => (.ok [], v)
    | some r => Detection.checkSites g rules cancelled r [] [] v r.sites

end AmbientScope
