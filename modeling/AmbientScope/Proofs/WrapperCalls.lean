import AmbientScope.CallGraph.Lowering

/-!
# Calls of wrappers

The wrappers in a graph come from declared routines. The body of a wrapper is a list of calls without arguments, none of
them hidden: they resolve, call the routine, provide and freeze, in this order.
-/

set_option autoImplicit false

namespace AmbientScope

namespace Lowering

theorem fresh_sublist (taken : List String) (candidates : List Declaration) :
    (fresh taken candidates).Sublist candidates := by
  induction candidates generalizing taken with
  | nil => exact .slnil
  | cons d rest ih =>
    unfold fresh
    split
    · exact (ih _).cons _
    · exact (ih _).cons_cons _

theorem exists_of_mem_wrappers {s : Settings} {declared : List Declaration} {w : Declaration}
    (h : w ∈ wrappers s declared) :
    ∃ d ∈ declared, d.wrapper? s.vocabulary s.wrapperSuffix = some w := by
  unfold wrappers at h
  split at h
  · exact List.mem_filterMap.mp ((fresh_sublist _ _).subset h)
  · exact absurd h List.not_mem_nil

end Lowering

namespace Declaration

/-- The type of what the routine returns, unless it returns nothing. -/
def resultType? (d : Declaration) : Option String :=
  d.returnType.filter fun type => type.toLower ≠ "void"

theorem toLower_eq_void_iff {type : String} :
    type.toLower = "void" ↔ type.toList.map Char.toLower = ['v', 'o', 'i', 'd'] := by
  have hlower : type.toLower = type.map Char.toLower := rfl
  rw [← String.toList_inj, hlower, String.toList_map]
  rfl

theorem toList_resultType? (d : Declaration) :
    d.resultType?.toList = if d.returnsVoid then [] else d.returnType.toList := by
  unfold returnsVoid resultType?
  cases d.returnType with
  | none => rfl
  | some type =>
    by_cases h : type.toLower = "void"
    · simp [Option.filter, h, toLower_eq_void_iff.mp h]
    · simp [Option.filter, h, mt toLower_eq_void_iff.mpr h]

def plainCall (d : Declaration) (target : MethodName) (type : Option String) : Call × Bool :=
  (⟨target, type, none, none, d.span⟩, false)

theorem calls_callHere (d : Declaration) (target : MethodName) (type : Option String) :
    (d.callHere target type).calls false = [d.plainCall target type] := rfl

theorem calls_wrapper {d w : Declaration} {v : Vocabulary} {suffix : String}
    (h : d.wrapper? v suffix = some w) :
    ∃ freeze, (∀ c ∈ freeze, c = d.plainCall (v.method .freeze) none) ∧
      Operation.optionCalls false w.body =
        (d.paramsWith v .frozen).map (fun p => d.plainCall (v.method .resolveFrozen) (some p.type)) ++
        (d.paramsWith v .scoped).map (fun p => d.plainCall (v.method .resolve) (some p.type)) ++
        [d.plainCall d.methodName none] ++
        d.resultType?.toList.map (fun type => d.plainCall (v.method .provide) (some type)) ++
        freeze := by
  have hcalls : Operation.optionCalls false w.body =
      (d.wrapperBody v).flatMap (·.calls false) := by
    rw [← Operation.listCalls_eq_flatMap, (of_wrapper? h).1]
    rfl
  have hresult : (if d.returnsVoid then []
      else d.returnType.toList.map fun type => d.callHere (v.method .provide) (some type)) =
      d.resultType?.toList.map fun type => d.callHere (v.method .provide) (some type) := by
    rw [toList_resultType?]
    split <;> rfl
  refine ⟨if ((v.boundaryAttribute? d.attributes).map v.isFreezing).getD false then
    [d.plainCall (v.method .freeze) none] else [], fun c hc => ?_, ?_⟩
  · split at hc
    · exact List.mem_singleton.mp hc
    · exact absurd hc List.not_mem_nil
  · simp only [hcalls, wrapperBody, hresult, List.flatMap_append, List.flatMap_map,
      List.flatMap_singleton, calls_callHere, ← List.map_eq_flatMap]
    split <;> rfl

/-- A wrapper calls its routine, and apart from that operations of the entry point only. -/
theorem target_of_wrapper {d w : Declaration} {v : Vocabulary} {suffix : String}
    (h : d.wrapper? v suffix = some w) {c : Call × Bool}
    (hc : c ∈ Operation.optionCalls false w.body) (hop : v.operation? c.1.target = none) :
    c.1.target = d.methodName := by
  have hmethod (op : ScopeOperation) : c.1.target ≠ v.method op := by
    intro hsame
    obtain ⟨op', hop', _⟩ := v.operation?_method op
    rw [hsame, hop'] at hop
    cases hop
  obtain ⟨freeze, hfreeze, hcalls⟩ := calls_wrapper h
  simp only [hcalls, List.mem_append, List.mem_map, List.mem_singleton] at hc
  rcases hc with (((⟨p, _, rfl⟩ | ⟨p, _, rfl⟩) | rfl) | ⟨type, _, rfl⟩) | hc
  · exact absurd rfl (hmethod .resolveFrozen)
  · exact absurd rfl (hmethod .resolve)
  · rfl
  · exact absurd rfl (hmethod .provide)
  · rw [hfreeze c hc] at hmethod
    exact absurd rfl (hmethod .freeze)

end Declaration

end AmbientScope
