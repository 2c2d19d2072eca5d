import AmbientScope.Proofs.Nested

/-!
# The steps of a walk

A step scans a site, starts the routine that a site calls, or finishes a routine. The stack is a chain of calls that
begins at the root: every routine that waits has just scanned a call of the one on top of it. A routine has a mark
from when it is started until it has a summary, and a summary for good, so that it is not started again; and a walk
comes to its end by finishing the root, never by running out of tasks or of steps.
-/

set_option autoImplicit false

namespace AmbientScope

/-- Every call leads to a routine of the graph. -/
def CallGraph.CallsWithin (g : CallGraph) : Prop := ∀ caller callee, g.Calls caller callee → callee < g.size

namespace Task

/-- The site that the second task has scanned last is there, and it calls the routine of the first one. -/
def CalledBy (g : CallGraph) (t waiting : Task) : Prop :=
  1 ≤ waiting.next ∧
    ∃ s, (g.sites waiting.routine)[waiting.next - 1]? = some s ∧ s.kind = .call t.routine

/-- The routine is one of the graph, and no site behind its last one is said to have been scanned. -/
def Within (g : CallGraph) (t : Task) : Prop :=
  t.routine < g.size ∧ t.next ≤ (g.sites t.routine).length

variable {g : CallGraph} {t t' waiting : Task} {s : Site}

theorem calledBy_advance (hs : t.site? g = some s) (hk : s.kind = .call t'.routine) :
    t'.CalledBy g t.advance :=
  ⟨Nat.succ_pos _, s, hs, hk⟩

theorem within_advance (h : t.Within g) (hs : t.site? g = some s) : t.advance.Within g :=
  ⟨h.1, (List.getElem?_eq_some_iff.mp hs).1⟩

theorem calls_of_site? (hs : t.site? g = some s) {callee : RoutineId} (hk : s.kind = .call callee) :
    g.Calls t.routine callee :=
  ⟨s, List.mem_of_getElem? hs, hk⟩

end Task

namespace Walk

/-- The routine whose task a step has put on the stack. -/
def started (w w' : Walk) : Option RoutineId :=
  if w.stack.length < w'.stack.length then w'.stack.head?.map Task.routine else none

/-- So many steps lead from one walk to the other; the routines that they start are listed in order. -/
inductive Steps (g : CallGraph) (w : Walk) : Nat → List RoutineId → Walk → Prop where
  | none : Steps g w 0 [] w
  | more {n : Nat} {ids : List RoutineId} {u u' : Walk} : Steps g w n ids u →
      u.step g = .running u' → Steps g w (n + 1) (ids ++ (started u u').toList) u'

/-- The ways in which a walk goes on. -/
inductive Moves (g : CallGraph) : Walk → Walk → Prop where
  | scan {v : View} {t : Task} {outer : List Task} {s : Site} {es : Summary} :
      t.site? g = some s → Moves g ⟨v, t :: outer⟩ ⟨v, t.advance.add es :: outer⟩
  | start {v : View} {t : Task} {outer : List Task} {s : Site} {callee : RoutineId} :
      t.site? g = some s → s.kind = .call callee → v.state callee = .unvisited →
      Moves g ⟨v, t :: outer⟩ (start v callee (t.advance :: outer))
  | finish {v : View} {t waiting : Task} {outer : List Task} {summary es : Summary} :
      t.site? g = none →
      Moves g ⟨v, t :: waiting :: outer⟩
        ⟨⟨(v.cache.publish t.routine summary).2, (v.unmark t.routine).marks⟩,
          waiting.add es :: outer⟩

variable {g : CallGraph} {v : View} {w w' : Walk} {root : RoutineId} {ids : List RoutineId} {n : Nat}

theorem moves_scan {t : Task} {s : Site} (hs : t.site? g = some s) (outer : List Task) :
    Moves g ⟨v, t :: outer⟩ (scan v t outer s) := by
  have hsilent : Moves g ⟨v, t :: outer⟩ ⟨v, t.advance :: outer⟩ := by
    have hnone := @Moves.scan g v t outer s [] hs
    simpa [Task.add] using hnone
  unfold scan
  split
  · exact .scan hs
  · exact hsilent
  · exact hsilent
  · rename_i callee hk
    split
    · exact .scan hs
    · exact hsilent
    · rename_i hnew
      exact .start hs hk hnew

theorem step_moves (h : w.step g = .running w') : Moves g w w' := by
  obtain ⟨v, stack⟩ := w
  cases stack with
  | nil => simp [step] at h
  | cons t outer =>
    cases hs : t.site? g with
    | some s =>
      simp only [step, hs, Progress.running.injEq] at h
      exact h ▸ moves_scan hs outer
    | none =>
      cases outer with
      | nil => simp [step, hs, finish] at h
      | cons waiting outer =>
        simp only [step, hs, finish, Progress.running.injEq] at h
        exact h ▸ .finish hs

/-- Only the root has no one to hand its summary to. -/
theorem step_finished {t : Task} {outer : List Task} {summary : Summary} {u : View}
    (h : step g ⟨v, t :: outer⟩ = .finished summary u) :
    outer = [] ∧ t.site? g = none ∧ (summary, u) = Nested.close g v t.routine t.effects := by
  cases hs : t.site? g with
  | some s => simp [step, hs] at h
  | none =>
    cases outer with
    | cons waiting outer => simp [step, hs, finish] at h
    | nil =>
      simp only [step, hs, finish, Progress.finished.injEq] at h
      rw [Nested.close_eq_publish]
      exact ⟨rfl, rfl, Prod.ext h.1.symm h.2.symm⟩

/-- What holds of a walk from a root after any number of steps that have started the given routines. -/
structure InOrder (g : CallGraph) (root : RoutineId) (ids : List RoutineId) (w : Walk) : Prop where
  once : (root :: ids).Nodup
  seen : ∀ id ∈ root :: ids, w.view.state id ≠ .unvisited
  calls : w.stack.IsChain (Task.CalledBy g)
  root : w.stack.getLast?.map Task.routine = some root

theorem inOrder_start (g : CallGraph) (v : View) (root : RoutineId) :
    InOrder g root [] (start v root []) where
  once := List.nodup_singleton root
  seen := by simpa [start] using View.state_mark_ne_unvisited v root
  calls := .singleton _
  root := rfl

namespace InOrder

theorem stack_ne_nil (h : InOrder g root ids w) : w.stack ≠ [] := by
  intro hnil
  simpa [hnil] using h.root

/-- The task on top may be replaced by one that stands in the same way to what waits for it. -/
theorem replace {t t' : Task} {outer : List Task} {u : View} (h : InOrder g root ids ⟨v, t :: outer⟩)
    (ht : t'.routine = t.routine) (hu : ∀ id, u.state id = .unvisited → v.state id = .unvisited) :
    InOrder g root ids ⟨u, t' :: outer⟩ where
  once := h.once
  seen := fun id hid hnew => h.seen id hid (hu id hnew)
  calls := by
    have hcalls := h.calls
    cases outer with
    | nil => exact .singleton t'
    | cons waiting outer =>
      obtain ⟨hcall, hrest⟩ := List.isChain_cons_cons.mp hcalls
      refine .cons_cons ?_ hrest
      rwa [Task.CalledBy, ht]
  root := by
    have hroot := h.root
    cases outer with
    | nil => simpa [ht] using hroot
    | cons waiting outer => simpa using hroot

theorem pop {t waiting : Task} {outer : List Task} (h : InOrder g root ids ⟨v, t :: waiting :: outer⟩) :
    InOrder g root ids ⟨v, waiting :: outer⟩ where
  once := h.once
  seen := h.seen
  calls := (List.isChain_cons_cons.mp h.calls).2
  root := by simpa using h.root

/-- What is started was unvisited, so it is none of the routines that were started before. -/
theorem push {t : Task} {outer : List Task} {callee : RoutineId}
    (h : InOrder g root ids ⟨v, t :: outer⟩) (hcall : Task.CalledBy g ⟨callee, 0, []⟩ t)
    (hnew : v.state callee = .unvisited) :
    InOrder g root (ids ++ [callee]) (start v callee (t :: outer)) where
  once := by
    have hfresh : callee ∉ root :: ids := fun hmem => h.seen callee hmem hnew
    rw [← List.cons_append]
    exact List.nodup_append.mpr ⟨h.once, List.nodup_singleton callee, by
      intro id hid q hq
      obtain rfl := List.mem_singleton.mp hq
      exact fun he => hfresh (he ▸ hid)⟩
  seen := by
    intro id hid hunseen
    rw [← List.cons_append, List.mem_append, List.mem_singleton] at hid
    rcases hid with hid | rfl
    · exact h.seen id hid (View.state_of_mark hunseen)
    · exact View.state_mark_ne_unvisited v id hunseen
  calls := .cons_cons hcall h.calls
  root := by simpa [start] using h.root

theorem step (h : InOrder g root ids w) (hstep : w.step g = .running w') :
    InOrder g root (ids ++ (started w w').toList) w' := by
  cases step_moves hstep with
  | @scan _ t _ _ es hs =>
    have hscan := h.replace (show (t.advance.add es).routine = t.routine from rfl) fun _ hid => hid
    simpa [started] using hscan
  | @start _ t _ _ _ hs hk hnew =>
    have hadvance := h.replace (show t.advance.routine = t.routine from rfl) fun _ hid => hid
    simpa [started, start] using hadvance.push (Task.calledBy_advance hs hk) hnew
  | @finish v t waiting _ summary es hs =>
    have hpop := h.pop.replace (show (waiting.add es).routine = waiting.routine from rfl)
      fun q hq => @View.state_of_finish v t.routine q summary hq
    simpa [started] using hpop

end InOrder

theorem Steps.inOrder (h : Steps g (start v root []) n ids w) : InOrder g root ids w := by
  induction h with
  | none => exact inOrder_start g v root
  | more _ hstep ih => exact ih.step hstep

/-- Every step uses up some of the potential. -/
theorem Steps.potential_le (h : Steps g w n ids w') : w'.potential g + n ≤ w.potential g := by
  induction h with
  | none => exact Nat.le_refl _
  | more _ hstep ih =>
    have hlt := potential_step hstep
    omega

theorem Steps.lt_bound (h : Steps g (start v root []) n ids w) : n < bound g := by
  have hle := h.potential_le
  have hstart := potential_start_le g v root
  have hpos : 1 ≤ w.potential g := by
    obtain ⟨t, outer, hstack⟩ := List.exists_cons_of_ne_nil h.inOrder.stack_ne_nil
    simp only [potential, hstack, List.map_cons, List.sum_cons, Task.remaining]
    omega
  omega

theorem Steps.within (h : Steps g (start v root []) n ids w) (hg : g.CallsWithin)
    (hroot : root < g.size) : ∀ t ∈ w.stack, t.Within g := by
  induction h with
  | none => simpa [start, Task.Within] using hroot
  | more _ hstep ih =>
    cases step_moves hstep with
    | scan hs =>
      obtain ⟨ht, houter⟩ := List.forall_mem_cons.mp ih
      exact List.forall_mem_cons.mpr ⟨Task.within_advance ht hs, houter⟩
    | start hs hk hnew =>
      obtain ⟨ht, houter⟩ := List.forall_mem_cons.mp ih
      have hcallee := hg _ _ (Task.calls_of_site? hs hk)
      exact List.forall_mem_cons.mpr ⟨⟨hcallee, Nat.zero_le _⟩,
        List.forall_mem_cons.mpr ⟨Task.within_advance ht hs, houter⟩⟩
    | finish hs =>
      obtain ⟨_, hrest⟩ := List.forall_mem_cons.mp ih
      obtain ⟨hwaiting, houter⟩ := List.forall_mem_cons.mp hrest
      exact List.forall_mem_cons.mpr ⟨hwaiting, houter⟩

theorem Steps.before {u : Walk} (hstep : w.step g = .running w') (h : Steps g w' n ids u) :
    Steps g w (n + 1) ((started w w').toList ++ ids) u := by
  induction h with
  | none => simpa using Steps.more .none hstep
  | more _ hlast ih => simpa using ih.more hlast

theorem Yields.steps {s : Summary} {u : View} (h : Yields g w s u) :
    ∃ n ids w', Steps g w n ids w' ∧ w'.step g = .finished s u := by
  induction h with
  | last h => exact ⟨0, [], _, .none, h⟩
  | next hstep _ ih =>
    obtain ⟨n, ids, w', hsteps, hlast⟩ := ih
    exact ⟨n + 1, _, w', hsteps.before hstep, hlast⟩

end Walk

open Walk in
/-- On any graph, from any cache and any marks. A walk comes to its end in less than its bound of steps: when
only the root is left on the stack and has no site left, its summary is what is answered. At every moment before, no
routine has been started twice, there is a task on the stack, and each task but the one on top has a last site,
which calls the routine of the task above. If calls lead to routines of the graph and the root is one, then all
tasks are of routines of the graph and none has gone past its sites. -/
theorem walk_ends_in_order (g : CallGraph) (v : View) (root : RoutineId) :
    (∃ n ids t u, Steps g (start v root []) n ids ⟨u, [t]⟩ ∧ t.routine = root ∧ t.site? g = none ∧
      run g (bound g) (start v root []) = Nested.close g u root t.effects ∧
      (v.cache.get? root = none → summarize g false v root =
        (.ok (Nested.close g u root t.effects).1, (Nested.close g u root t.effects).2))) ∧
    ∀ n ids w, Steps g (start v root []) n ids w →
      n < bound g ∧ (root :: ids).Nodup ∧ w.stack ≠ [] ∧ w.stack.IsChain (Task.CalledBy g) ∧
      (g.CallsWithin → root < g.size → ∀ t ∈ w.stack, t.Within g) := by
  constructor
  · have hyields := yields_start g v root
    obtain ⟨n, ids, ⟨u, stack⟩, hsteps, hlast⟩ := hyields.steps
    obtain ⟨t, outer, rfl⟩ := List.exists_cons_of_ne_nil hsteps.inOrder.stack_ne_nil
    obtain ⟨rfl, hend, hclose⟩ := step_finished hlast
    obtain rfl : t.routine = root := by simpa using hsteps.inOrder.root
    have hrun := run_of_yields hyields (potential_start_le g v t.routine)
    refine ⟨n, ids, t, u, hsteps, rfl, hend, hrun.trans hclose, fun hnone => ?_⟩
    rw [summarize_of_uncached hnone, ← hclose]
  · intro n ids w hsteps
    have hw := hsteps.inOrder
    exact ⟨hsteps.lt_bound, hw.once, hw.stack_ne_nil, hw.calls, hsteps.within⟩

/-- The first routine calls the other two, and these call back. -/
def knot : CallGraph := CallGraph.ofSites
  [(none, [(.call 1, false), (.call 2, true)]),
   (none, [(.call 0, false), (.call 2, false)]),
   (some "Job", [(.external, false), (.call 1, true), (.call 2, false)])]

/-- After three steps all routines of the knot are on the stack, though the root had a mark from before. -/
theorem walk_ends_in_order_knot :
    let v : View := ⟨FirstWrite.empty, [0]⟩
    knot.CallsWithin ∧ 0 < knot.size ∧ ∃ ids w, Walk.Steps knot (Walk.start v 0 []) 3 ids w ∧
      ids = [1, 2] ∧ w.stack.map (fun t => (t.routine, t.next)) = [(2, 0), (1, 2), (0, 1)] ∧
      3 < Walk.bound knot ∧ w.stack.IsChain (Task.CalledBy knot) ∧ ∀ t ∈ w.stack, t.Within knot := by
  intro v
  have hwithin : knot.CallsWithin := by
    rintro caller callee ⟨s, hs, hk⟩
    have hall : ∀ q ∈ List.range knot.size, ∀ s ∈ knot.sites q,
        s.kind = .external ∨ s.kind ∈ (List.range knot.size).map SiteClass.call := by
      decide
    have hcaller := List.mem_range.mpr (CallGraph.lt_size_of_mem_sites hs)
    simpa [hk] using hall caller hcaller s hs
  have hsteps : Walk.Steps knot (Walk.start v 0 []) 3 _ _ :=
    .more (.more (.more .none rfl) rfl) rfl
  obtain ⟨hbound, _, _, hcalls, hin⟩ := (walk_ends_in_order knot v 0).2 3 _ _ hsteps
  exact ⟨hwithin, by decide, _, _, hsteps, rfl, rfl, hbound, hcalls, hin hwithin (by decide)⟩

end AmbientScope
