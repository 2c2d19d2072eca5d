import AmbientScope.CallGraph.Basic
import Mathlib.Data.Finset.Card
import Mathlib.Logic.Relation

/-!
# Calls between routines

The call relation of a graph, and routines from which no cycle of calls can be reached. Only routines of the graph
have sites, so all routines on a chain of calls but the last one are among finitely many, and a routine without a
cycle below it has fewer routines below each of its callees than below itself.
-/

set_option autoImplicit false

namespace AmbientScope

namespace CallGraph
variable {g : CallGraph} {id c : RoutineId}

/-- A site of the first routine calls the second. -/
def Calls (g : CallGraph) (caller callee : RoutineId) : Prop :=
  ∃ s ∈ g.sites caller, s.kind = .call callee

/-- A chain of calls, possibly empty, leads from the first routine to the second. -/
def Reaches (g : CallGraph) : RoutineId → RoutineId → Prop := Relation.ReflTransGen g.Calls

/-- No cycle of calls can be reached from the routine. -/
def AcyclicFrom (g : CallGraph) (id : RoutineId) : Prop :=
  ∀ q, g.Reaches id q → ¬ Relation.TransGen g.Calls q q

/-- No routine calls itself, directly or through others. -/
def Acyclic (g : CallGraph) : Prop := ∀ q, ¬ Relation.TransGen g.Calls q q

theorem Acyclic.acyclicFrom (h : g.Acyclic) (id : RoutineId) : g.AcyclicFrom id :=
  fun q _ => h q

theorem AcyclicFrom.of_calls (h : g.AcyclicFrom id) (hc : g.Calls id c) : g.AcyclicFrom c :=
  fun q hq => h q (.head hc hq)

/-- A callee never leads back to its caller. -/
theorem AcyclicFrom.not_reaches (h : g.AcyclicFrom id) (hc : g.Calls id c) :
    ¬ g.Reaches c id :=
  fun hr => h id .refl (.head' hc hr)

theorem sites_of_size_le (h : g.size ≤ id) : g.sites id = [] := by
  have hn : g.routine? id = none := List.getElem?_eq_none_iff.mpr h
  simp [sites, hn]

theorem boundary?_of_size_le (h : g.size ≤ id) : g.boundary? id = none := by
  have hn : g.routine? id = none := List.getElem?_eq_none_iff.mpr h
  simp [boundary?, hn]

theorem lt_size_of_mem_sites {s : Site} (h : s ∈ g.sites id) : id < g.size := by
  by_contra hge
  rw [sites_of_size_le (Nat.le_of_not_lt hge)] at h
  exact absurd h List.not_mem_nil

theorem Calls.lt_size (h : g.Calls id c) : id < g.size := by
  obtain ⟨s, hs, _⟩ := h
  exact lt_size_of_mem_sites hs

section Below
open Classical

/-- The routines of the graph at or below a routine. -/
noncomputable def below (g : CallGraph) (id : RoutineId) : Finset RoutineId :=
  (Finset.range g.size).filter (g.Reaches id)

theorem card_below_le (g : CallGraph) (id : RoutineId) : (g.below id).card ≤ g.size := by
  simpa [below] using Finset.card_filter_le (Finset.range g.size) (g.Reaches id)

theorem mem_below_self (h : id < g.size) : id ∈ g.below id :=
  Finset.mem_filter.mpr ⟨Finset.mem_range.mpr h, .refl⟩

theorem reaches_of_mem_below {q : RoutineId} (h : q ∈ g.below id) : g.Reaches id q :=
  (Finset.mem_filter.mp h).2

theorem AcyclicFrom.card_below_lt (h : g.AcyclicFrom id) (hc : g.Calls id c) :
    (g.below c).card < (g.below id).card := by
  apply Finset.card_lt_card
  rw [Finset.ssubset_iff_of_subset]
  · exact ⟨id, mem_below_self hc.lt_size, fun hm => h.not_reaches hc (Finset.mem_filter.mp hm).2⟩
  · intro q hq
    obtain ⟨hlt, hr⟩ := Finset.mem_filter.mp hq
    exact Finset.mem_filter.mpr ⟨hlt, .head hc hr⟩

end Below

/-- Whether calls of the given routines stay among them and lead to smaller ranks. -/
def descends (g : CallGraph) (ids : List RoutineId) (rank : RoutineId → Nat) : Bool :=
  ids.all fun caller => (g.sites caller).all fun s =>
    match s.kind with
    | .call callee => callee ∈ ids && rank callee < rank caller
    | _ => true

section Descends
variable {ids : List RoutineId} {rank : RoutineId → Nat} (h : g.descends ids rank = true)
include h

theorem descends_calls (hid : id ∈ ids) (hc : g.Calls id c) : c ∈ ids ∧ rank c < rank id := by
  obtain ⟨s, hs, hk⟩ := hc
  have hall := List.all_eq_true.mp (List.all_eq_true.mp h id hid) s hs
  simpa [hk] using hall

theorem descends_reaches (hid : id ∈ ids) (hr : g.Reaches id c) : c ∈ ids := by
  induction hr with
  | refl => exact hid
  | tail _ hc ih => exact (descends_calls h ih hc).1

theorem descends_rank_lt (hid : id ∈ ids) (hr : Relation.TransGen g.Calls id c) :
    rank c < rank id := by
  induction hr with
  | single hc => exact (descends_calls h hid hc).2
  | tail hr hc ih =>
    exact Nat.lt_trans (descends_calls h (descends_reaches h hid hr.to_reflTransGen) hc).2 ih

theorem acyclicFrom_of_descends (hid : id ∈ ids) : g.AcyclicFrom id :=
  fun _ hr hcycle => Nat.lt_irrefl _ (descends_rank_lt h (descends_reaches h hid hr) hcycle)

end Descends

theorem acyclic_of_descends {rank : RoutineId → Nat}
    (h : g.descends (List.range g.size) rank = true) : g.Acyclic := by
  intro q hcycle
  obtain ⟨c, hc, _⟩ := Relation.TransGen.head'_iff.mp hcycle
  exact acyclicFrom_of_descends h (List.mem_range.mpr hc.lt_size) q .refl hcycle

/-- A small graph, given by the scope and the sites of each routine. -/
def ofSites (routines : List (Option String × List (SiteClass × Bool))) : CallGraph where
  routines := routines.mapIdx fun id r =>
    { id := id, name := toString id, file := none, span := {}, markers := ⟨r.1, false⟩,
      sites := r.2.mapIdx fun index s => ⟨index, s.1, s.2, {}, ""⟩,
      hasBody := true, synthesized := false }

end CallGraph

end AmbientScope
