import AmbientScope.Proofs.WalkBound

/-!
# Summaries by recursion

The summary of a routine as a recursive definition: a cached routine has its entry; a callee with a mark contributes
nothing; any other routine is marked while its sites are scanned, the summaries of its callees being computed
where they are called, and is then published. The definition builds each effect itself and uses no step of a walk. A walk
with its stack of suspended routines computes the same summary, and leaves the same cache and the same marks.
-/

set_option autoImplicit false

namespace AmbientScope

open Walk

def View.unmarked (g : CallGraph) (v : View) : Finset RoutineId :=
  (Finset.range g.size).filter (· ∉ v.marks)

theorem View.card_unmarked_mark_lt {g : CallGraph} {v : View} {id : RoutineId}
    (hid : id < g.size) (h : id ∉ v.marks) :
    ((v.mark id).unmarked g).card < (v.unmarked g).card := by
  apply Finset.card_lt_card
  rw [Finset.ssubset_iff_of_subset]
  · refine ⟨id, ?_, ?_⟩
    · exact Finset.mem_filter.mpr ⟨Finset.mem_range.mpr hid, h⟩
    · simp [unmarked]
  · intro q hq
    simp only [unmarked, Finset.mem_filter, mem_mark, not_or] at hq ⊢
    exact ⟨hq.1, hq.2.2⟩

theorem View.card_unmarked_mark_of_size_le {g : CallGraph} {v : View} {id : RoutineId}
    (hid : g.size ≤ id) : ((v.mark id).unmarked g).card = (v.unmarked g).card := by
  congr 1
  apply Finset.filter_congr
  intro q hq
  have hlt := Finset.mem_range.mp hq
  have hne : q ≠ id := Nat.ne_of_lt (Nat.lt_of_lt_of_le hlt hid)
  simp [hne]

namespace Nested

/-- The summary of a routine whose sites have the given effects: a push in front, sure to run, if the routine has a
scope of its own. -/
def framed (g : CallGraph) (id : RoutineId) (effects : List Effect) : Summary :=
  match (g.routine? id).bind fun r => r.markers.boundary with
  | some label => ⟨.push label, false, .boundary id⟩ :: effects
  | none => effects

/-- End a routine whose effects are known: take its mark away and cache its summary, unless there is one already,
which is then the answer. -/
def close (g : CallGraph) (v : View) (id : RoutineId) (effects : List Effect) : Summary × View :=
  let marks := v.marks.filter (· ≠ id)
  match v.cache.get? id with
  | some earlier => (earlier, ⟨v.cache, marks⟩)
  | none => (framed g id effects, ⟨v.cache.insert id (framed g id effects), marks⟩)

section Close
variable (g : CallGraph) (v : View) (id : RoutineId) (es : List Effect)

/-- Closing a routine is what a walk does when it has scanned all sites. -/
theorem close_eq_publish :
    close g v id es =
      let (summary, cache) := v.cache.publish id (Summary.bounded g id es)
      (summary, { v.unmark id with cache := cache }) := by
  unfold close
  split
  · rename_i earlier h
    simp [SummaryCache.publish, h, FirstWrite.insert_of_bound h, View.unmark]
  · rename_i h
    simp only [SummaryCache.publish, h, Option.getD_none]
    rfl

theorem close_marks : (close g v id es).2.marks = (v.unmark id).marks := by
  rw [close_eq_publish]

theorem close_cache : (close g v id es).2.cache = v.cache.insert id (Summary.bounded g id es) := by
  rw [close_eq_publish]
  rfl

theorem close_summary :
    (close g v id es).1 = (v.cache.get? id).getD (Summary.bounded g id es) := by
  rw [close_eq_publish]
  rfl

theorem get?_close : (close g v id es).2.cache.get? id = some (close g v id es).1 := by
  rw [close_eq_publish]
  exact SummaryCache.get?_publish v.cache id _

end Close

theorem close_mark_marks {g : CallGraph} {v : View} {id : RoutineId} (h : id ∉ v.marks)
    (c : SummaryCache) (effects : List Effect) :
    (close g { v.mark id with cache := c } id effects).2.marks = v.marks :=
  (close_marks ..).trans (View.unmark_mark_marks h)

/-- The effects of sites of a routine in order, and the cache afterwards. -/
def effects (g : CallGraph) (v : View) (id : RoutineId) : List Site → List Effect × SummaryCache
  | [] => ([], v.cache)
  | s :: rest =>
    match s.kind with
    | .direct action =>
      let after := effects g v id rest
      (⟨action, s.hidden, .site id s.index⟩ :: after.1, after.2)
    | .inert _ => effects g v id rest
    | .external => effects g v id rest
    | .call callee =>
      match v.cache.get? callee with
      | some summary =>
        let after := effects g v id rest
        (summary.map (fun e => ⟨e.action, e.hidden || s.hidden, e.origin⟩) ++ after.1, after.2)
      | none =>
        if callee ∈ v.marks then effects g v id rest
        else
          let body := effects g (v.mark callee) callee (g.sites callee)
          let done := close g { v.mark callee with cache := body.2 } callee body.1
          let after := effects g done.2 id rest
          (done.1.map (fun e => ⟨e.action, e.hidden || s.hidden, e.origin⟩) ++ after.1, after.2)
termination_by sites => ((v.unmarked g).card, sites.length)
decreasing_by
  · exact Prod.Lex.right _ (Nat.lt_succ_self _)
  · exact Prod.Lex.right _ (Nat.lt_succ_self _)
  · exact Prod.Lex.right _ (Nat.lt_succ_self _)
  · exact Prod.Lex.right _ (Nat.lt_succ_self _)
  · exact Prod.Lex.right _ (Nat.lt_succ_self _)
  · rename_i h
    -- a callee outside the graph has no sites
    rcases Nat.lt_or_ge callee g.size with hlt | hge
    · exact Prod.Lex.left _ _ (View.card_unmarked_mark_lt hlt h)
    · rw [View.card_unmarked_mark_of_size_le hge, CallGraph.sites_of_size_le hge]
      exact Prod.Lex.right _ (Nat.succ_pos _)
  · rename_i h
    have hmarks := close_mark_marks (g := g) h body.2 body.1
    rw [View.unmarked, hmarks, ← View.unmarked]
    exact Prod.Lex.right _ (Nat.lt_succ_self _)

section Equations
variable (g : CallGraph) (v : View) (id : RoutineId) {s : Site} (rest : List Site)

@[simp] theorem effects_nil : effects g v id [] = ([], v.cache) := by
  rw [effects]

theorem effects_direct {action : Action} (h : s.kind = .direct action) :
    effects g v id (s :: rest) =
      (s.effect id action :: (effects g v id rest).1, (effects g v id rest).2) := by
  rw [effects]
  simp only [h]
  rfl

theorem effects_silent (h : (∃ op, s.kind = .inert op) ∨ s.kind = .external) :
    effects g v id (s :: rest) = effects g v id rest := by
  rw [effects]
  rcases h with ⟨op, h⟩ | h <;> simp [h]

variable {callee : RoutineId}

theorem effects_cached {summary : Summary} (h : s.kind = .call callee)
    (hc : v.cache.get? callee = some summary) :
    effects g v id (s :: rest) =
      (summary.splice s.hidden ++ (effects g v id rest).1, (effects g v id rest).2) := by
  rw [effects]
  simp only [h, hc]
  rfl

theorem effects_cut (h : s.kind = .call callee) (hc : v.cache.get? callee = none)
    (hm : callee ∈ v.marks) : effects g v id (s :: rest) = effects g v id rest := by
  rw [effects]
  simp [h, hc, hm]

/-- The summary of a routine that is started, and what is seen once it has ended. -/
def start (g : CallGraph) (v : View) (id : RoutineId) : Summary × View :=
  let body := effects g (v.mark id) id (g.sites id)
  close g { v.mark id with cache := body.2 } id body.1

theorem effects_started (h : s.kind = .call callee) (hc : v.cache.get? callee = none)
    (hm : callee ∉ v.marks) :
    effects g v id (s :: rest) =
      ((start g v callee).1.splice s.hidden ++ (effects g (start g v callee).2 id rest).1,
        (effects g (start g v callee).2 id rest).2) := by
  rw [effects]
  simp only [h, hc, if_neg hm]
  rfl

end Equations

variable {g : CallGraph}

theorem start_cache (v : View) (id : RoutineId) :
    (start g v id).2.cache = (effects g (v.mark id) id (g.sites id)).2.insert id
      (Summary.bounded g id (effects g (v.mark id) id (g.sites id)).1) :=
  close_cache ..

theorem start_marks {v : View} {id : RoutineId} (h : id ∉ v.marks) :
    (start g v id).2.marks = v.marks :=
  close_mark_marks h _ _

/-- Induction along the recursive definition: over the sites of a routine, and over those of each callee that is
started on the way. -/
@[elab_as_elim]
theorem effects_induction {motive : View → RoutineId → List Site → Prop}
    (nil : ∀ v id, motive v id [])
    (direct : ∀ v id s rest action, s.kind = .direct action → motive v id rest →
      motive v id (s :: rest))
    (silent : ∀ v id s rest, ((∃ op, s.kind = .inert op) ∨ s.kind = .external) →
      motive v id rest → motive v id (s :: rest))
    (cached : ∀ v id s rest callee summary, s.kind = .call callee →
      v.cache.get? callee = some summary → motive v id rest → motive v id (s :: rest))
    (cut : ∀ v id s rest callee, s.kind = .call callee → v.cache.get? callee = none →
      callee ∈ v.marks → motive v id rest → motive v id (s :: rest))
    (started : ∀ v id s rest callee, s.kind = .call callee → v.cache.get? callee = none →
      callee ∉ v.marks → motive (v.mark callee) callee (g.sites callee) →
      motive (start g v callee).2 id rest → motive v id (s :: rest))
    (v : View) (id : RoutineId) (sites : List Site) : motive v id sites := by
  induction v, id, sites using effects.induct (g := g) with
  | case1 v id => exact nil v id
  | case2 v id s rest action h ih => exact direct v id s rest action h ih
  | case3 v id s rest op h ih => exact silent v id s rest (.inl ⟨op, h⟩) ih
  | case4 v id s rest h ih => exact silent v id s rest (.inr h) ih
  | case5 v id s rest callee h summary hc ih => exact cached v id s rest callee summary h hc ih
  | case6 v id s rest callee h hc hm ih => exact cut v id s rest callee h hc hm ih
  | case7 v id s rest callee h hc hm _ _ ihBody ihRest =>
    exact started v id s rest callee h hc hm ihBody ihRest

/-- The recursive definition as seen from a root, which is started even if it has a mark. -/
def summarize (g : CallGraph) (v : View) (root : RoutineId) : Summary × View :=
  match v.cache.get? root with
  | some summary => (summary, v)
  | none => start g v root

end Nested

theorem Task.site?_of_drop {g : CallGraph} {t : Task} {s : Site} {rest : List Site}
    (h : (g.sites t.routine).drop t.next = s :: rest) :
    t.site? g = some s ∧ (g.sites t.routine).drop (t.next + 1) = rest := by
  constructor
  · have hget := congrArg (·[0]?) h
    simpa [site?] using hget
  · rw [← List.tail_drop, h, List.tail_cons]

namespace Walk
variable {g : CallGraph}

section Scan
variable (v : View) (id : RoutineId) (n : Nat) (es : List Effect) (outer : List Task) {s : Site}

theorem scan_direct {action : Action} (h : s.kind = .direct action) :
    scan v ⟨id, n, es⟩ outer s = ⟨v, ⟨id, n + 1, es ++ [s.effect id action]⟩ :: outer⟩ := by
  simp [scan, h, Task.advance, Task.add]

theorem scan_silent (h : (∃ op, s.kind = .inert op) ∨ s.kind = .external) :
    scan v ⟨id, n, es⟩ outer s = ⟨v, ⟨id, n + 1, es⟩ :: outer⟩ := by
  rcases h with ⟨op, h⟩ | h <;> simp [scan, h, Task.advance]

theorem scan_cached {callee : RoutineId} {summary : Summary} (h : s.kind = .call callee)
    (hc : v.cache.get? callee = some summary) :
    scan v ⟨id, n, es⟩ outer s = ⟨v, ⟨id, n + 1, es ++ summary.splice s.hidden⟩ :: outer⟩ := by
  simp [scan, h, View.state_of_cached hc, hc, Task.advance, Task.add]

theorem scan_cut {callee : RoutineId} (h : s.kind = .call callee)
    (hc : v.cache.get? callee = none) (hm : callee ∈ v.marks) :
    scan v ⟨id, n, es⟩ outer s = ⟨v, ⟨id, n + 1, es⟩ :: outer⟩ := by
  simp [scan, h, View.state_of_marked hc hm, Task.advance]

theorem scan_started {callee : RoutineId} (h : s.kind = .call callee)
    (hc : v.cache.get? callee = none) (hm : callee ∉ v.marks) :
    scan v ⟨id, n, es⟩ outer s =
      ⟨v.mark callee, ⟨callee, 0, []⟩ :: ⟨id, n + 1, es⟩ :: outer⟩ := by
  have hstate : v.state callee = .unvisited := View.state_eq_unvisited_iff.mpr ⟨hc, hm⟩
  simp [scan, h, hstate, start, Task.advance]

end Scan

theorem Yields.scan {v : View} {t : Task} {outer : List Task} {site : Site} {s : Summary}
    {u : View} (hsite : t.site? g = some site) (h : Yields g (Walk.scan v t outer site) s u) :
    Yields g ⟨v, t :: outer⟩ s u :=
  .next (by simp [step, hsite]) h

theorem Yields.finish_callee {v : View} {t parent : Task} {outer : List Task} {s : Summary}
    {u : View} (hend : t.site? g = none)
    (h : Yields g ⟨(Nested.close g v t.routine t.effects).2,
      parent.add ((Nested.close g v t.routine t.effects).1.splice (parent.lastHidden g)) ::
        outer⟩ s u) :
    Yields g ⟨v, t :: parent :: outer⟩ s u :=
  .next (by simp only [step, hend, finish, Nested.close_eq_publish, View.unmark_cache]) h

theorem Yields.finish_root {v : View} {t : Task} (hend : t.site? g = none) :
    Yields g ⟨v, [t]⟩ (Nested.close g v t.routine t.effects).1
      (Nested.close g v t.routine t.effects).2 :=
  .last (by simp only [step, hend, finish, Nested.close_eq_publish, View.unmark_cache])

/-- Scanning what is left of a routine on the stack comes to its effects by recursion, whatever waits for it. -/
theorem yields_of_effects (v : View) (id : RoutineId) (sites : List Site) {n : Nat}
    {es : List Effect} {outer : List Task} {s : Summary} {u : View}
    (hsites : (g.sites id).drop n = sites)
    (h : Yields g ⟨⟨(Nested.effects g v id sites).2, v.marks⟩,
      ⟨id, n + sites.length, es ++ (Nested.effects g v id sites).1⟩ :: outer⟩ s u) :
    Yields g ⟨v, ⟨id, n, es⟩ :: outer⟩ s u := by
  induction v, id, sites using Nested.effects_induction (g := g) generalizing n es outer with
  | nil v id => simpa using h
  | direct v id site rest action hk ih =>
    obtain ⟨hsite, hrest⟩ := Task.site?_of_drop (t := ⟨id, n, es⟩) hsites
    rw [Nested.effects_direct g v id rest hk] at h
    refine .scan hsite ?_
    rw [scan_direct v id n es outer hk]
    exact ih hrest (by simpa [Nat.add_right_comm, ← Nat.add_assoc] using h)
  | silent v id site rest hk ih =>
    obtain ⟨hsite, hrest⟩ := Task.site?_of_drop (t := ⟨id, n, es⟩) hsites
    rw [Nested.effects_silent g v id rest hk] at h
    refine .scan hsite ?_
    rw [scan_silent v id n es outer hk]
    exact ih hrest (by simpa [Nat.add_right_comm, ← Nat.add_assoc] using h)
  | cached v id site rest callee summary hk hc ih =>
    obtain ⟨hsite, hrest⟩ := Task.site?_of_drop (t := ⟨id, n, es⟩) hsites
    rw [Nested.effects_cached g v id rest hk hc] at h
    refine .scan hsite ?_
    rw [scan_cached v id n es outer hk hc]
    exact ih hrest (by simpa [Nat.add_right_comm, ← Nat.add_assoc] using h)
  | cut v id site rest callee hk hc hm ih =>
    obtain ⟨hsite, hrest⟩ := Task.site?_of_drop (t := ⟨id, n, es⟩) hsites
    rw [Nested.effects_cut g v id rest hk hc hm] at h
    refine .scan hsite ?_
    rw [scan_cut v id n es outer hk hc hm]
    exact ih hrest (by simpa [Nat.add_right_comm, ← Nat.add_assoc] using h)
  | started v id site rest callee hk hc hm ihBody ihRest =>
    obtain ⟨hsite, hrest⟩ := Task.site?_of_drop (t := ⟨id, n, es⟩) hsites
    rw [Nested.effects_started g v id rest hk hc hm] at h
    refine .scan hsite ?_
    rw [scan_started v id n es outer hk hc hm]
    apply ihBody List.drop_zero
    -- the callee has been scanned: it is finished and handed to the routine that waits for it
    apply Yields.finish_callee (by simp [Task.site?])
    have hlast : Task.lastHidden ⟨id, n + 1, es⟩ g = site.hidden := by
      simp [Task.lastHidden, show (g.sites id)[n]? = some site from hsite]
    rw [hlast]
    apply ihRest hrest
    rw [Nested.start_marks hm]
    simpa [Nested.start, Nat.add_right_comm, ← Nat.add_assoc] using h

theorem yields_start (g : CallGraph) (v : View) (root : RoutineId) :
    Yields g (start v root []) (Nested.start g v root).1 (Nested.start g v root).2 := by
  apply yields_of_effects (v.mark root) root (g.sites root) List.drop_zero
  exact Yields.finish_root (by simp [Task.site?])

end Walk

theorem summarize_of_uncached {g : CallGraph} {v : View} {root : RoutineId}
    (h : v.cache.get? root = none) :
    summarize g false v root = (.ok (Nested.start g v root).1, (Nested.start g v root).2) := by
  have hrun := Walk.run_of_yields (Walk.yields_start g v root) (Walk.potential_start_le g v root)
  simp [summarize, h, hrun]

/-- For every graph, cache and set of marks, the walk and the recursive definition give the same summary and
leave the same view. -/
theorem summarize_eq_nested (g : CallGraph) (v : View) (root : RoutineId) :
    summarize g false v root =
      (.ok (Nested.summarize g v root).1, (Nested.summarize g v root).2) := by
  unfold Nested.summarize
  cases hc : v.cache.get? root with
  | some summary => simp [summarize, hc]
  | none => exact summarize_of_uncached hc

/-- The first routine has a scope of its own and a provide that may not run. It starts the second routine where that may
not run, calls one whose summary is known and one that is in progress. The second routine calls back. -/
def partlyKnown : CallGraph := CallGraph.ofSites
  [(some "Job",
      [(.direct (.provide ⟨"A", none⟩), true), (.call 1, true), (.inert .pop, false), (.call 2, false),
       (.call 3, false), (.external, false)]),
   (some "Step", [(.call 0, false), (.direct (.resolve ⟨"B", none⟩), false), (.call 2, true)]),
   (none, []),
   (none, [(.direct (.provide ⟨"C", none⟩), false)])]

/-- The first routine and the last one are in progress, and the third one has a summary. -/
def partlyKnownView : View :=
  ⟨FirstWrite.empty.insert 2 [⟨.provide ⟨"D", none⟩, false, .site 9 0⟩], [3, 0]⟩

def partlyKnownSummary : Summary :=
  [⟨.push "Job", false, .boundary 0⟩, ⟨.provide ⟨"A", none⟩, true, .site 0 0⟩,
    ⟨.push "Step", true, .boundary 1⟩, ⟨.resolve ⟨"B", none⟩, true, .site 1 1⟩,
    ⟨.provide ⟨"D", none⟩, true, .site 9 0⟩, ⟨.provide ⟨"D", none⟩, false, .site 9 0⟩]

theorem summarize_eq_nested_partly_known :
    let answer := Nested.summarize partlyKnown partlyKnownView 0
    answer.1 = partlyKnownSummary ∧ answer.2.cache.get? 0 = some partlyKnownSummary ∧
      answer.2.cache.get? 1 = some
        [⟨.push "Step", false, .boundary 1⟩, ⟨.resolve ⟨"B", none⟩, false, .site 1 1⟩,
          ⟨.provide ⟨"D", none⟩, true, .site 9 0⟩] ∧
      answer.2.cache.get? 3 = none ∧ answer.2.marks = [3] := by
  intro answer
  have hwalk := summarize_eq_nested partlyKnown partlyKnownView 0
  have hsummary : Except.ok partlyKnownSummary = (.ok answer.1 : Except Failure Summary) :=
    congrArg Prod.fst hwalk
  have hview : (summarize partlyKnown false partlyKnownView 0).2 = answer.2 := congrArg Prod.snd hwalk
  refine ⟨(Except.ok.inj hsummary).symm, ?_⟩
  rw [← hview]
  decide

end AmbientScope
