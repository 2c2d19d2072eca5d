import AmbientScope.Program.Vocabulary

/-!
# Wrappers

A routine with a marker, or with a marked parameter, has a wrapper: a routine that a caller can use without
supplying the marked arguments. Its body resolves the frozen parameters, then the scoped ones, each
group in the order of declaration; calls the routine; provides the result if there is one; and freezes if the
routine's marker says so. It keeps the plain parameters and has no markers of its own.
-/

set_option autoImplicit false

namespace AmbientScope

namespace Declaration

/-- The parameters with the given role, in the order of declaration. -/
def paramsWith (d : Declaration) (v : Vocabulary) (role : ParameterRole) : List Parameter :=
  d.params.filter fun p => v.parameterRole p.attributes == role

/-- Whether callers need a wrapper. -/
def needsWrapper (d : Declaration) (v : Vocabulary) : Bool :=
  (v.boundaryAttribute? d.attributes).isSome ||
    d.params.any fun p => v.parameterRole p.attributes != .plain

/-- A call at the place of the declaration. -/
def callHere (d : Declaration) (target : MethodName) (valueType : Option String) : Operation :=
  .invocation { target := target, valueType := valueType, span := d.span } []

def wrapperBody (d : Declaration) (v : Vocabulary) : List Operation :=
  let resolve (op : ScopeOperation) (p : Parameter) := d.callHere (v.method op) (some p.type)
  let freezing := ((v.boundaryAttribute? d.attributes).map v.isFreezing).getD false
  (d.paramsWith v .frozen).map (resolve .resolveFrozen) ++
    (d.paramsWith v .scoped).map (resolve .resolve) ++
    [d.callHere d.methodName none] ++
    (if d.returnsVoid then []
      else d.returnType.toList.map fun type => d.callHere (v.method .provide) (some type)) ++
    (if freezing then [d.callHere (v.method .freeze) none] else [])

def wrapper? (d : Declaration) (v : Vocabulary) (suffix : String) : Option Declaration :=
  if d.needsWrapper v then
    some
      { name := d.name ++ suffix
        containingType := d.containingType
        namespaceName := d.namespaceName
        params := d.paramsWith v .plain
        returnType := d.returnType
        file := d.file
        span := d.span
        body := some (.block (d.wrapperBody v)) }
  else none

/-- A wrapper resolves, calls and provides, and has no attributes. -/
theorem of_wrapper? {d w : Declaration} {v : Vocabulary} {suffix : String}
    (h : d.wrapper? v suffix = some w) :
    w.body = some (.block (d.wrapperBody v)) ∧ w.attributes = [] := by
  unfold wrapper? at h
  split at h
  · obtain rfl := Option.some.inj h
    exact ⟨rfl, rfl⟩
  · simp at h

end Declaration

end AmbientScope
