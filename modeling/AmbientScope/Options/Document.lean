import AmbientScope.Json.Reading
import AmbientScope.Json.Value
import AmbientScope.Options.Basic

/-!
# Options documents

Reading and writing options as JSON. Every field may be null or missing; in array form all of them have
to be there.
-/

set_option autoImplicit false

namespace AmbientScope

namespace EntryOverrides
open Reader

def fields : List (RecordField EntryOverrides) :=
  [ nullableField "namespace" string fun v o => { o with namespaceName := v }
  , nullableField "typeName" string fun v o => { o with typeName := v }
  , nullableField "push" string fun v o => { o with push := v }
  , nullableField "pop" string fun v o => { o with pop := v }
  , nullableField "provide" string fun v o => { o with provide := v }
  , nullableField "resolve" string fun v o => { o with resolve := v }
  , nullableField "freeze" string fun v o => { o with freeze := v }
  , nullableField "resolveFrozen" string fun v o => { o with resolveFrozen := v } ]

def reader : Reader EntryOverrides := record "struct RuntimeEntryOptions" fields {}

def toJson (o : EntryOverrides) : Json :=
  .object
    [ ("namespace", .ofOption .string o.namespaceName)
    , ("typeName", .ofOption .string o.typeName)
    , ("push", .ofOption .string o.push)
    , ("pop", .ofOption .string o.pop)
    , ("provide", .ofOption .string o.provide)
    , ("resolve", .ofOption .string o.resolve)
    , ("freeze", .ofOption .string o.freeze)
    , ("resolveFrozen", .ofOption .string o.resolveFrozen) ]

end EntryOverrides

namespace MarkerOverrides
open Reader

def fields : List (RecordField MarkerOverrides) :=
  [ nullableField "scope" string fun v o => { o with scope := v }
  , nullableField "frozenScope" string fun v o => { o with frozenScope := v } ]

def reader : Reader MarkerOverrides := record "struct MarkerOptions" fields {}

def toJson (o : MarkerOverrides) : Json :=
  .object
    [ ("scope", .ofOption .string o.scope)
    , ("frozenScope", .ofOption .string o.frozenScope) ]

end MarkerOverrides

namespace Overrides
open Reader

def fields : List (RecordField Overrides) :=
  [ nullableField "runtime" EntryOverrides.reader fun v o => { o with entry := v }
  , nullableField "markers" MarkerOverrides.reader fun v o => { o with markers := v }
  , nullableField "reportHiddenFlow" bool fun v o => { o with reportHiddenFlow := v }
  , nullableField "hiddenFlowAsError" bool fun v o => { o with hiddenFlowAsError := v }
  , nullableField "debugEcho" bool fun v o => { o with debugEcho := v }
  , nullableField "synthesizeWrappers" bool fun v o => { o with synthesizeWrappers := v }
  , nullableField "wrapperSuffix" string fun v o => { o with wrapperSuffix := v }
  , nullableField "jobs" (natBelow UInt64.size "usize") fun v o => { o with jobs := v } ]

def reader : Reader Overrides := record "struct AnalyzerOptions" fields {}

def toJson (o : Overrides) : Json :=
  .object
    [ ("runtime", .ofOption EntryOverrides.toJson o.entry)
    , ("markers", .ofOption MarkerOverrides.toJson o.markers)
    , ("reportHiddenFlow", .ofOption .bool o.reportHiddenFlow)
    , ("hiddenFlowAsError", .ofOption .bool o.hiddenFlowAsError)
    , ("debugEcho", .ofOption .bool o.debugEcho)
    , ("synthesizeWrappers", .ofOption .bool o.synthesizeWrappers)
    , ("wrapperSuffix", .ofOption .string o.wrapperSuffix)
    , ("jobs", .ofOption .nat o.jobs) ]

end Overrides

namespace OptionsFile
open Reader

def fields : List (RecordField OptionsFile) :=
  [ nullableField "analyzerOptions" Overrides.reader fun v f => { f with overrides := v }
  , nullableField "files" (list string) fun v f => { f with files := v } ]

def reader : Reader OptionsFile := record "struct ScopyConfig" fields {}

def toJson (f : OptionsFile) : Json :=
  .object
    [ ("analyzerOptions", .ofOption Overrides.toJson f.overrides)
    , ("files", .ofOption .strings f.files) ]

def parse (text : String) : Except Rejection OptionsFile := document reader text

/-- The wording of a refusal, which a fault of the text does not have. -/
def refusal? (r : Rejection) : Option String := r.message?.map ("invalid options file: " ++ ·)

/-- Why there are no options from a file: it is missing, or its text is refused. -/
inductive Failure where
  | missing
  | refused (r : Rejection)
  deriving DecidableEq, Inhabited

def Failure.message? : Failure → Option String
  | missing => some "failed to read options file: No such file or directory (os error 2)"
  | refused r => refusal? r

/-- The options in a file, given the text of the file if there is one. -/
def load : Option String → Except Failure OptionsFile
  | none => .error .missing
  | some text => (parse text).mapError .refused

def initialText : String := initial.toJson.pretty ++ "\n"

end OptionsFile

end AmbientScope
