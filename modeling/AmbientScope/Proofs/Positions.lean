import AmbientScope.CallGraph.Lowering

/-!
# Positions in lowered graphs

A graph that comes from a program numbers its routines, and the sites of each routine, by their positions.
-/

set_option autoImplicit false

namespace AmbientScope

/-- Routines and sites carry their positions. -/
structure CallGraph.Indexed (g : CallGraph) : Prop where
  routine : ∀ id r, g.routine? id = some r → r.id = id
  site : ∀ id r i (s : Site), g.routine? id = some r → r.sites[i]? = some s → s.index = i

namespace Lowering

theorem site_index_of_mem {v : Vocabulary} {routines : List Declaration} {body : Option Operation}
    {i : Nat} {s : Site} (h : (sites v routines body)[i]? = some s) : s.index = i := by
  rw [sites, List.getElem?_mapIdx] at h
  obtain ⟨c, _, rfl⟩ := Option.map_eq_some_iff.mp h
  rfl

section Declarations
variable {routines extra : List Declaration} {id : RoutineId} {d : Declaration} {name : String}

/-- A declaration keeps its position when others are added behind. -/
theorem getElem?_declared (hd : routines[id]? = some d) (extra : List Declaration) :
    (routines ++ extra)[id]? = some d := by
  rw [List.getElem?_append_left (List.getElem?_eq_some_iff.mp hd).1, hd]

theorem eq_of_qualifiedName (hnames : (routines.map Declaration.qualifiedName).Nodup)
    {i j : Nat} {e : Declaration} (hd : routines[i]? = some d) (he : routines[j]? = some e)
    (h : d.qualifiedName = e.qualifiedName) : i = j := by
  have hlt : i < (routines.map Declaration.qualifiedName).length := by
    rw [List.length_map]
    exact (List.getElem?_eq_some_iff.mp hd).1
  apply (List.getElem?_inj hlt hnames).mp
  rw [List.getElem?_map, List.getElem?_map, hd, he]
  exact congrArg some h

theorem callee?_some (h : callee? routines name = some id) :
    ∃ d, routines[id]? = some d ∧ d.qualifiedName = name ∧ d.body.isSome = true := by
  unfold callee? at h
  split at h
  · simp at h
  · rename_i i hi
    obtain ⟨hlt, hname, _⟩ := List.findIdx?_eq_some_iff_getElem.mp hi
    split at h
    · rename_i hbody
      obtain rfl := Option.some.inj h
      refine ⟨routines[i], List.getElem?_eq_getElem hlt, by simpa using hname, ?_⟩
      simpa [List.getElem?_eq_getElem hlt] using hbody
    · simp at h

/-- Declarations behind the one with the name do not matter. -/
theorem callee?_eq (hnames : (routines.map Declaration.qualifiedName).Nodup)
    (hd : routines[id]? = some d) (hbody : d.body.isSome = true) :
    callee? (routines ++ extra) d.qualifiedName = some id := by
  have hlt := (List.getElem?_eq_some_iff.mp hd).1
  have hall := getElem?_declared hd extra
  have hfirst : (routines ++ extra).findIdx? (·.qualifiedName == d.qualifiedName) = some id := by
    rw [List.findIdx?_eq_some_iff_getElem]
    refine ⟨Nat.lt_of_lt_of_le hlt (by simp), ?_, ?_⟩
    · rw [(List.getElem?_eq_some_iff.mp hall).2]
      simp
    · intro j hj hsame
      have hjlt := Nat.lt_trans hj hlt
      rw [List.getElem_append_left hjlt] at hsame
      have hjd := List.getElem?_eq_getElem hjlt
      have hij := eq_of_qualifiedName hnames hjd hd (by simpa using hsame)
      omega
  unfold callee?
  rw [hfirst]
  simp [hall, hbody]

section Graph
variable {v : Vocabulary} {declared : Nat} (hd : routines[id]? = some d)
include hd

theorem routine?_graph :
    (graph v declared routines).routine? id = some (routine v routines declared id d) := by
  simp [CallGraph.routine?, graph, List.getElem?_mapIdx, hd]

theorem sites_graph : (graph v declared routines).sites id = sites v routines d.body := by
  simp [CallGraph.sites, routine?_graph hd, routine]

theorem boundary?_graph :
    (graph v declared routines).boundary? id =
      (v.boundaryAttribute? d.attributes).map v.markerName := by
  simp only [CallGraph.boundary?, routine?_graph hd, Option.bind_some, routine,
    Vocabulary.routineMarkers]
  cases v.boundaryAttribute? d.attributes <;> rfl

end Graph

end Declarations

theorem graph_indexed (v : Vocabulary) (declared : Nat) (routines : List Declaration) :
    (graph v declared routines).Indexed := by
  have hroutine : ∀ id r, (graph v declared routines).routine? id = some r →
      ∃ d, r = Lowering.routine v routines declared id d := by
    intro id r h
    rw [CallGraph.routine?, graph, List.getElem?_mapIdx] at h
    obtain ⟨d, _, hd⟩ := Option.map_eq_some_iff.mp h
    exact ⟨d, hd.symm⟩
  constructor
  · intro id r h
    obtain ⟨d, rfl⟩ := hroutine id r h
    rfl
  · intro id r i s h hs
    obtain ⟨d, rfl⟩ := hroutine id r h
    exact site_index_of_mem hs

end Lowering

theorem CallGraph.ofProgram_indexed {s : Settings} {p : Program} {g : CallGraph}
    (h : CallGraph.ofProgram s p = .ok g) : g.Indexed := by
  unfold CallGraph.ofProgram at h
  split at h
  · simp at h
  · obtain rfl := Except.ok.inj h
    exact Lowering.graph_indexed _ _ _

namespace CallGraph.Indexed
variable {g : CallGraph} {id : RoutineId} {r : Routine}

theorem getElem?_index (h : g.Indexed) (hr : g.routine? id = some r) {s : Site}
    (hs : s ∈ r.sites) : r.sites[s.index]? = some s := by
  obtain ⟨i, hi⟩ := List.getElem?_of_mem hs
  rwa [h.site id r i s hr hi]

theorem pairwise_index_lt (h : g.Indexed) (hr : g.routine? id = some r) :
    r.sites.Pairwise fun a b => a.index < b.index := by
  rw [List.pairwise_iff_getElem]
  intro i j hi hj hij
  rw [h.site id r i _ hr (List.getElem?_eq_getElem hi), h.site id r j _ hr (List.getElem?_eq_getElem hj)]
  exact hij

end CallGraph.Indexed

end AmbientScope
