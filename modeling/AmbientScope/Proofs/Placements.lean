import AmbientScope.Proofs.LoweredGraphs
import AmbientScope.Proofs.Renumbering

/-!
# Placements

When the declarations of one list stand in another list at other positions, the graph of the first list sits inside
that of the second one. For this a call may lead to a declaration of the second list only if that declaration comes
from the first one.
-/

set_option autoImplicit false

namespace AmbientScope

/-- The routines with a body are the numbers of such routines, in order. -/
theorem CallGraph.Indexed.bodies_eq_filter {g : CallGraph} (h : g.Indexed) :
    g.bodies = (List.range g.size).filter fun id => (g.routine? id).any Routine.hasBody := by
  have hids : g.routines.map Routine.id = List.range g.size := by
    apply List.ext_getElem?
    intro i
    rw [List.getElem?_map]
    cases hr : g.routines[i]? with
    | none =>
      have hout : g.size ≤ i := List.getElem?_eq_none_iff.mp hr
      simp [hout]
    | some r =>
      have hin : i < g.size := (List.getElem?_eq_some_iff.mp hr).1
      simp [h.routine i r hr, hin]
  rw [← hids, List.filter_map, bodies]
  congr 1
  apply List.filter_congr
  intro r hr
  obtain ⟨i, hi⟩ := List.getElem?_of_mem hr
  have hget : g.routine? i = some r := hi
  rw [Function.comp_apply, h.routine i r hget, hget, Option.any_some]

theorem CallGraph.Indexed.nodup_bodies {g : CallGraph} (h : g.Indexed) : g.bodies.Nodup := by
  rw [h.bodies_eq_filter]
  exact List.nodup_range.filter _

theorem CallGraph.Indexed.mem_bodies_iff {g : CallGraph} (h : g.Indexed) {id : RoutineId} :
    id ∈ g.bodies ↔ (g.routine? id).any Routine.hasBody = true := by
  rw [h.bodies_eq_filter, List.mem_filter, List.mem_range]
  refine ⟨And.right, fun hbody => ⟨?_, hbody⟩⟩
  by_contra hout
  rw [routine?, List.getElem?_eq_none (Nat.le_of_not_lt hout)] at hbody
  simp at hbody

theorem CallGraph.ofProgram_of_nodup (s : Settings) {p : Program}
    (hnames : (p.routines.map Declaration.qualifiedName).Nodup) :
    ofProgram s p = .ok (Lowering.graph s.vocabulary p.routines.length
      (p.routines ++ Lowering.wrappers s p.routines)) := by
  have hnone : Lowering.duplicate? [] (p.routines.map Declaration.qualifiedName) = none :=
    Lowering.duplicate?_eq_none_iff.mpr ⟨hnames, fun _ _ => List.not_mem_nil⟩
  simp only [ofProgram, hnone]

theorem CallGraph.ofProgram_eq_ok_iff {s : Settings} {p : Program} {g : CallGraph} :
    ofProgram s p = .ok g ↔ (p.routines.map Declaration.qualifiedName).Nodup ∧
      Lowering.graph s.vocabulary p.routines.length
        (p.routines ++ Lowering.wrappers s p.routines) = g := by
  constructor
  · intro h
    unfold ofProgram at h
    split at h
    · simp at h
    · rename_i hnone
      exact ⟨(Lowering.duplicate?_eq_none_iff.mp hnone).1, Except.ok.inj h⟩
  · rintro ⟨hnames, rfl⟩
    exact ofProgram_of_nodup s hnames

/-- The function on positions behind the first one that comes from a function on all positions. -/
def shift (f : Nat → Nat) : Nat → Nat
  | 0 => 0
  | i + 1 => f i + 1

theorem shift_injective {f : Nat → Nat} (h : Function.Injective f) :
    Function.Injective (shift f) := by
  intro i j hij
  cases i <;> cases j <;> simp_all [shift, h.eq_iff]

theorem shift_surjective {f : Nat → Nat} (h : Function.Surjective f) :
    Function.Surjective (shift f) := by
  intro k
  cases k with
  | zero => exact ⟨0, rfl⟩
  | succ k =>
    obtain ⟨i, rfl⟩ := h k
    exact ⟨i + 1, rfl⟩

namespace Lowering

/-- The declarations of the first list are in the second one, at other positions. -/
structure Places (f : Nat → Nat) (xs zs : List Declaration) : Prop where
  injective : Function.Injective f
  getElem? : ∀ i, zs[f i]? = xs[i]?

variable {f : Nat → Nat} {xs zs : List Declaration} {v : Vocabulary}

theorem callee?_eq_some_iff_getElem? {routines : List Declaration}
    (h : (routines.map Declaration.qualifiedName).Nodup) {name : String} {j : Nat} :
    callee? routines name = some j ↔
      ∃ d, routines[j]? = some d ∧ d.qualifiedName = name ∧ d.body.isSome = true := by
  refine ⟨callee?_some, ?_⟩
  rintro ⟨d, hd, rfl, hbody⟩
  rw [← List.append_nil routines]
  exact callee?_eq h hd hbody

theorem Places.callee? (h : Places f xs zs) (hxs : (xs.map Declaration.qualifiedName).Nodup)
    (hzs : (zs.map Declaration.qualifiedName).Nodup) {name : String}
    (hown : ∀ k e, zs[k]? = some e → e.qualifiedName = name → ∃ i, f i = k) :
    callee? zs name = (callee? xs name).map f := by
  cases hx : Lowering.callee? xs name with
  | some i =>
    rw [callee?_eq_some_iff_getElem? hxs, ← h.getElem? i] at hx
    exact (callee?_eq_some_iff_getElem? hzs).mpr hx
  | none =>
    rw [Option.map_none, Option.eq_none_iff_forall_ne_some]
    intro k hz
    obtain ⟨e, he, hname, hbody⟩ := (callee?_eq_some_iff_getElem? hzs).mp hz
    obtain ⟨i, rfl⟩ := hown k e he hname
    rw [h.getElem? i] at he
    have hfound := (callee?_eq_some_iff_getElem? hxs).mpr ⟨e, he, hname, hbody⟩
    simp [hx] at hfound

theorem classify_renumber {c : Call}
    (h : v.operation? c.target = none →
      callee? zs c.target.qualified = (callee? xs c.target.qualified).map f) :
    classify v zs c = (classify v xs c).renumber f := by
  unfold classify
  cases hop : v.operation? c.target with
  | some op => cases op <;> rfl
  | none =>
    simp only [h hop]
    cases callee? xs c.target.qualified <;> rfl

theorem sites_renumber {body : Option Operation}
    (h : ∀ c ∈ Operation.optionCalls false body, v.operation? c.1.target = none →
      callee? zs c.1.target.qualified = (callee? xs c.1.target.qualified).map f) :
    sites v zs body = (sites v xs body).map (Site.renumber f) := by
  apply List.ext_getElem?
  intro k
  rw [sites, sites, List.getElem?_map, List.getElem?_mapIdx, List.getElem?_mapIdx, Option.map_map]
  cases hc : (Operation.optionCalls false body)[k]? with
  | none => rfl
  | some c =>
    have hkind := classify_renumber (h c (List.mem_of_getElem? hc))
    simp only [Option.map_some, Function.comp_apply, site, Site.renumber, hkind]

theorem Places.embeds (h : Places f xs zs) (hxs : (xs.map Declaration.qualifiedName).Nodup)
    (hzs : (zs.map Declaration.qualifiedName).Nodup) (declared declared' : Nat)
    (hown : ∀ d ∈ xs, ∀ c ∈ Operation.optionCalls false d.body, v.operation? c.1.target = none →
      ∀ k e, zs[k]? = some e → e.qualifiedName = c.1.target.qualified → ∃ i, f i = k) :
    (graph v declared xs).Embeds f (graph v declared' zs) where
  injective := h.injective
  routine? := by
    intro i
    rw [CallGraph.routine?, CallGraph.routine?, graph, graph, List.getElem?_mapIdx,
      List.getElem?_mapIdx, h.getElem? i]
    cases hd : xs[i]? with
    | none => exact .none
    | some d =>
      have hsites : sites v zs d.body = (sites v xs d.body).map (Site.renumber f) :=
        sites_renumber fun c hc hop =>
          h.callee? hxs hzs (hown d (List.mem_of_getElem? hd) c hc hop)
      refine .some ?_
      rw [Routine.Renumbered]
      simp only [routine, hsites]

end Lowering

end AmbientScope
