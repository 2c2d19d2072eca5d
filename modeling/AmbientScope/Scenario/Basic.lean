import AmbientScope.Program.Vocabulary

/-!
# Scenarios

Small programs for comparing what the analysis says with what happens when the code runs. All routines are methods of
one type in one file, and every operation has a place of length one.
-/

set_option autoImplicit false

namespace AmbientScope

structure Scenario where
  routines : List Declaration
  deriving Inhabited

namespace Scenario

def namespaceName : String := "App"

def typeName : String := "Svc"

def fileName : String := "scenario.cs"

def program (s : Scenario) : Program := ⟨s.routines⟩

def markerAttribute (marker : String) : String := "ScopyRuntime." ++ marker ++ "Attribute"

/-- A parameter whose argument is resolved from the current scope. -/
def scopedParameter (name type : String) : Parameter := ⟨name, type, [markerAttribute "Scope"]⟩

def routine (name : String) (marker : Option String) (params : List Parameter)
    (returnType : Option String) (body : List Operation) : Declaration where
  name := name
  containingType := typeName
  namespaceName := namespaceName
  params := params
  returnType := returnType
  attributes := (marker.map markerAttribute).toList
  file := some fileName
  body := some (.block body)

/-! ## Operations -/

def spanAt (offset : UInt32) : Span := ⟨offset, 1⟩

/-- A call of an operation of the entry point. -/
def onScope (op : ScopeOperation) (offset : UInt32) (valueType key label : Option String) :
    Operation :=
  .invocation ⟨({} : Vocabulary).method op, valueType, key, label, spanAt offset⟩ []

def provide (type : String) (offset : UInt32) : Operation :=
  onScope .provide offset (some type) none none

def provideNamed (type key : String) (offset : UInt32) : Operation :=
  onScope .provide offset (some type) (some key) none

def resolve (type : String) (offset : UInt32) : Operation :=
  onScope .resolve offset (some type) none none

def push (label : String) (offset : UInt32) : Operation :=
  onScope .push offset none none (some label)

def pop (offset : UInt32) : Operation := onScope .pop offset none none none

def call (method : String) (offset : UInt32) (arguments : List Operation) : Operation :=
  .invocation
    { target := ⟨namespaceName, typeName, method⟩, span := spanAt offset } arguments

/-- An operation that runs under a condition. -/
def when (op : Operation) : Operation := .conditional none op none

end Scenario

end AmbientScope
