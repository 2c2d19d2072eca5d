/-!
# Options

An options file may leave out everything. Overrides are what a file says; settings are what an analysis
runs with once every gap is filled.
-/

set_option autoImplicit false

namespace AmbientScope

/-- Where the operations on the ambient scope are declared, and what they are called there. -/
structure Entry where
  namespaceName : String := "ScopyRuntime"
  typeName : String := "CurrentScope"
  push : String := "Push"
  pop : String := "Pop"
  provide : String := "Provide"
  resolve : String := "Resolve"
  freeze : String := "Freeze"
  resolveFrozen : String := "ResolveFrozen"
  deriving DecidableEq, Inhabited

structure EntryOverrides where
  namespaceName : Option String := none
  typeName : Option String := none
  push : Option String := none
  pop : Option String := none
  provide : Option String := none
  resolve : Option String := none
  freeze : Option String := none
  resolveFrozen : Option String := none
  deriving DecidableEq, Inhabited

structure MarkerOverrides where
  scope : Option String := none
  frozenScope : Option String := none
  deriving DecidableEq, Inhabited

structure Overrides where
  entry : Option EntryOverrides := none
  markers : Option MarkerOverrides := none
  reportHiddenFlow : Option Bool := none
  hiddenFlowAsError : Option Bool := none
  debugEcho : Option Bool := none
  synthesizeWrappers : Option Bool := none
  wrapperSuffix : Option String := none
  jobs : Option Nat := none
  deriving DecidableEq, Inhabited

/-- An options file: overrides and the documents to analyze, relative to the file's directory. -/
structure OptionsFile where
  overrides : Option Overrides := none
  files : Option (List String) := none
  deriving DecidableEq, Inhabited

structure Rules where
  reportHiddenFlow : Bool := true
  hiddenFlowAsError : Bool := false
  debugEcho : Bool := false
  deriving DecidableEq, Inhabited

/-- Everything an analysis depends on besides the program. -/
structure Settings where
  entry : Entry := {}
  scopeMarker : String := "Scope"
  frozenScopeMarker : String := "FrozenScope"
  rules : Rules := {}
  synthesizeWrappers : Bool := true
  wrapperSuffix : String := "Scoped"
  /-- The number of workers, if one was asked for. -/
  jobs : Option Nat := none
  deriving DecidableEq, Inhabited

namespace EntryOverrides

def apply (o : EntryOverrides) (e : Entry) : Entry where
  namespaceName := o.namespaceName.getD e.namespaceName
  typeName := o.typeName.getD e.typeName
  push := o.push.getD e.push
  pop := o.pop.getD e.pop
  provide := o.provide.getD e.provide
  resolve := o.resolve.getD e.resolve
  freeze := o.freeze.getD e.freeze
  resolveFrozen := o.resolveFrozen.getD e.resolveFrozen

end EntryOverrides

namespace Overrides

/-- Fill every gap with its default; no jobs means that the number is left open. -/
def settings (o : Overrides) : Settings :=
  let d : Settings := {}
  let m := o.markers.getD {}
  { entry := (o.entry.getD {}).apply d.entry
    scopeMarker := m.scope.getD d.scopeMarker
    frozenScopeMarker := m.frozenScope.getD d.frozenScopeMarker
    rules :=
      { reportHiddenFlow := o.reportHiddenFlow.getD d.rules.reportHiddenFlow
        hiddenFlowAsError := o.hiddenFlowAsError.getD d.rules.hiddenFlowAsError
        debugEcho := o.debugEcho.getD d.rules.debugEcho }
    synthesizeWrappers := o.synthesizeWrappers.getD d.synthesizeWrappers
    wrapperSuffix := o.wrapperSuffix.getD d.wrapperSuffix
    jobs := o.jobs.filter (0 < ·) }

@[simp] theorem settings_empty : ({} : Overrides).settings = {} := rfl

end Overrides

namespace OptionsFile

def defaultName : String := "scopy.json"

def settings (f : OptionsFile) : Settings := (f.overrides.getD {}).settings

/-- What a new options file says. -/
def initial : OptionsFile where
  overrides := some
    { reportHiddenFlow := some true
      hiddenFlowAsError := some false
      debugEcho := some false
      synthesizeWrappers := some true }
  files := some ["callgraph.json"]

end OptionsFile

end AmbientScope
