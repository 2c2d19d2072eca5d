import AmbientScope.Flow.Walk
import AmbientScope.Proofs.Calls
import Mathlib.Algebra.BigOperators.Group.Finset.Piecewise
import Mathlib.Algebra.GroupWithZero.Nat
import Mathlib.Algebra.Order.BigOperators.Group.Finset

/-!
# The length of a walk

A walk has a potential: what is left to scan in the routines on its stack, and all sites of the routines it may
still start, the latter counted twice because a started routine also takes a step to finish. Each step
lowers it, whatever the graph, the cache and the marks are, so the bound on the number of steps is never reached.
-/

set_option autoImplicit false

namespace AmbientScope

namespace View

/-- The sites of the routines that a worker may still start, each counted twice. -/
def unvisitedSites (g : CallGraph) (v : View) : Nat :=
  ∑ id ∈ Finset.range g.size, if v.state id = .unvisited then 2 * (g.sites id).length else 0

theorem unvisitedSites_mono {g : CallGraph} {v v' : View}
    (h : ∀ id, v'.state id = .unvisited → v.state id = .unvisited) :
    v'.unvisitedSites g ≤ v.unvisitedSites g := by
  apply Finset.sum_le_sum
  intro id _
  by_cases hv : v'.state id = .unvisited
  · simp [hv, h id hv]
  · simp [hv]

/-- A routine that can no longer be started takes its sites off the account. -/
theorem unvisitedSites_add_le (g : CallGraph) {v v' : View} {id : RoutineId}
    (h : ∀ q, v'.state q = .unvisited → v.state q = .unvisited)
    (hid : v.state id = .unvisited) (hid' : v'.state id ≠ .unvisited) :
    v'.unvisitedSites g + 2 * (g.sites id).length ≤ v.unvisitedSites g := by
  have hone : ∑ q ∈ Finset.range g.size, (if q = id then 2 * (g.sites q).length else 0) =
      2 * (g.sites id).length := by
    rw [Finset.sum_ite_eq']
    split
    · rfl
    · rename_i hout
      rw [CallGraph.sites_of_size_le (by simpa using hout)]
      rfl
  unfold unvisitedSites
  rw [← hone, ← Finset.sum_add_distrib]
  apply Finset.sum_le_sum
  intro q _
  by_cases hq : q = id
  · subst hq
    simp [hid, hid']
  · by_cases hv : v'.state q = .unvisited
    · simp [hq, hv, h q hv]
    · simp [hq, hv]

theorem state_empty (id : RoutineId) : ({} : View).state id = .unvisited :=
  state_eq_unvisited_iff.mpr ⟨rfl, List.not_mem_nil⟩

theorem state_mark_ne_unvisited (v : View) (id : RoutineId) : (v.mark id).state id ≠ .unvisited := by
  simp [state_eq_unvisited_iff]

theorem state_of_mark {v : View} {id q : RoutineId} (h : (v.mark id).state q = .unvisited) :
    v.state q = .unvisited := by
  simp only [state_eq_unvisited_iff, mark_cache, mem_mark, not_or] at h ⊢
  exact ⟨h.1, h.2.2⟩

/-- A routine that is finished is in the cache, so taking its mark away does not make it unvisited. -/
theorem state_of_finish {v : View} {id q : RoutineId} {s : Summary}
    (h : View.state ⟨(v.cache.publish id s).2, (v.unmark id).marks⟩ q = .unvisited) :
    v.state q = .unvisited := by
  obtain ⟨hcache, hmark⟩ := state_eq_unvisited_iff.mp h
  rw [SummaryCache.publish, FirstWrite.get?_insert] at hcache
  split at hcache
  · exact absurd hcache (by simp)
  · rename_i hne
    exact state_eq_unvisited_iff.mpr ⟨hcache, fun hm => hmark (mem_unmark.mpr ⟨hm, hne⟩)⟩

end View

namespace Task

/-- Two for each site that is left, and one for the end. -/
def remaining (g : CallGraph) (t : Task) : Nat := 2 * ((g.sites t.routine).length - t.next) + 1

@[simp] theorem remaining_add (g : CallGraph) (t : Task) (s : Summary) :
    (t.add s).remaining g = t.remaining g := rfl

theorem remaining_advance {g : CallGraph} {t : Task} {s : Site} (h : t.site? g = some s) :
    (t.advance).remaining g + 2 = t.remaining g := by
  obtain ⟨hlt, _⟩ := List.getElem?_eq_some_iff.mp h
  simp only [remaining, advance]
  omega

end Task

namespace Walk

/-- A bound on the steps that are left. -/
def potential (g : CallGraph) (w : Walk) : Nat :=
  w.view.unvisitedSites g + (w.stack.map (Task.remaining g)).sum

theorem potential_scan {g : CallGraph} {v : View} {t : Task} {outer : List Task} {s : Site}
    (h : t.site? g = some s) :
    (scan v t outer s).potential g < potential g ⟨v, t :: outer⟩ := by
  have hadvance := Task.remaining_advance h
  unfold scan
  split
  · simp [potential]
    omega
  · simp [potential]
    omega
  · simp [potential]
    omega
  · split
    · simp [potential]
      omega
    · simp [potential]
      omega
    · rename_i callee _ _ hstate
      have hmark := View.unvisitedSites_add_le g (fun _ => View.state_of_mark) hstate
        (View.state_mark_ne_unvisited v callee)
      simp [potential, start, Task.remaining] at hadvance hmark ⊢
      omega

theorem unvisitedSites_finish (g : CallGraph) (v : View) (id : RoutineId) (s : Summary) :
    View.unvisitedSites g ⟨(v.cache.publish id s).2, (v.unmark id).marks⟩ ≤
      v.unvisitedSites g :=
  View.unvisitedSites_mono fun _ => View.state_of_finish

theorem potential_step {g : CallGraph} {w w' : Walk} (h : w.step g = .running w') :
    w'.potential g < w.potential g := by
  obtain ⟨v, stack⟩ := w
  cases stack with
  | nil => simp [step] at h
  | cons t outer =>
    cases hs : t.site? g with
    | some s =>
      simp only [step, hs, Progress.running.injEq] at h
      exact h ▸ potential_scan hs
    | none =>
      cases outer with
      | nil => simp [step, hs, finish] at h
      | cons parent rest =>
        simp only [step, hs, finish, Progress.running.injEq] at h
        subst h
        have hview := unvisitedSites_finish g v t.routine (Summary.bounded g t.routine t.effects)
        have hend : 1 ≤ t.remaining g := Nat.le_add_left _ _
        simp only [potential, List.map_cons, List.sum_cons, Task.remaining_add, View.unmark_cache]
        omega

/-- The steps of a walk end with a summary and a view. -/
inductive Yields (g : CallGraph) : Walk → Summary → View → Prop where
  | last {w : Walk} {s : Summary} {v : View} : w.step g = .finished s v → Yields g w s v
  | next {w w' : Walk} {s : Summary} {v : View} :
      w.step g = .running w' → Yields g w' s v → Yields g w s v

theorem run_of_yields {g : CallGraph} {w : Walk} {s : Summary} {v : View} (h : Yields g w s v)
    {n : Nat} (hn : w.potential g ≤ n) : run g n w = (s, v) := by
  induction h generalizing n with
  | @last w s v h =>
    cases n with
    | succ n => simp [run, h]
    | zero =>
      obtain ⟨u, stack⟩ := w
      cases stack with
      | nil => simpa [run, step] using h
      | cons t outer => simp [potential, Task.remaining] at hn
  | @next w w' s v h _ ih =>
    have hlt := potential_step h
    cases n with
    | zero => omega
    | succ n => simpa [run, h] using ih (by omega)

theorem bound_eq (g : CallGraph) : bound g = ({} : View).unvisitedSites g + 1 := by
  simp only [View.unvisitedSites, View.state_empty, if_true]
  obtain ⟨routines⟩ := g
  induction routines with
  | nil => rfl
  | cons r rest ih =>
    have hsites : ∀ id, CallGraph.sites ⟨r :: rest⟩ (id + 1) = CallGraph.sites ⟨rest⟩ id := by
      simp [CallGraph.sites, CallGraph.routine?]
    have hfirst : CallGraph.sites ⟨r :: rest⟩ 0 = r.sites := rfl
    simp only [bound, CallGraph.size, List.foldr_cons, List.length_cons] at ih ⊢
    rw [Finset.sum_range_succ', hfirst, ih]
    simp only [hsites]
    omega

theorem potential_start_le (g : CallGraph) (v : View) (root : RoutineId) :
    (start v root []).potential g ≤ bound g := by
  have h := View.unvisitedSites_add_le g (fun q _ => View.state_empty q) (View.state_empty root)
    (View.state_mark_ne_unvisited v root)
  rw [bound_eq]
  simp only [potential, start, Task.remaining, List.map_cons, List.map_nil, List.sum_cons,
    List.sum_nil]
  omega

end Walk

end AmbientScope
