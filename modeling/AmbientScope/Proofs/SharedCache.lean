import AmbientScope.Proofs.Expansion

/-!
# Walks over a shared cache

What a walk can rely on while others publish into its cache: entries are expansions, the callees of a routine in the
cache are in the cache too, and nothing gets there that no routine with a body calls. On a graph without cycles
a suspended walk stays sound under such publications, because the routines on its stack are a chain of calls and
each of them has, up to the site where it waits, the effects of its expansion.
-/

set_option autoImplicit false

namespace AmbientScope

/-- Whatever is in the first cache is in the second. -/
def SummaryCache.Grows (c c' : SummaryCache) : Prop :=
  ∀ id, c.contains id = true → c'.contains id = true

namespace SummaryCache

theorem Grows.refl (c : SummaryCache) : c.Grows c := fun _ h => h

theorem contains_insert (c : SummaryCache) (id q : RoutineId) (s : Summary) :
    FirstWrite.contains (c.insert id s) q = true ↔ q = id ∨ c.contains q = true := by
  unfold FirstWrite.contains
  rw [FirstWrite.get?_insert]
  by_cases hq : q = id <;> simp [hq]

theorem grows_insert (c : SummaryCache) (id : RoutineId) (s : Summary) :
    Grows c (c.insert id s) :=
  fun q hq => (contains_insert c id q s).mpr (.inr hq)

theorem contains_of_get? {c : SummaryCache} {id : RoutineId} {s : Summary}
    (h : c.get? id = some s) : c.contains id = true := by
  simp [FirstWrite.contains, h]

theorem get?_eq_none_iff {c : SummaryCache} {id : RoutineId} :
    c.get? id = none ↔ ¬ c.contains id = true := by
  simp [FirstWrite.contains]

end SummaryCache

/-- A cache that is filled by the analysis of an acyclic graph. -/
structure SummaryCache.Sound (g : CallGraph) (c : SummaryCache) : Prop where
  exact : c.Exact g
  closed : ∀ id callee, c.contains id = true → g.Calls id callee → c.contains callee = true
  called : ∀ id, c.contains id = true → ∃ b ∈ g.bodies, Relation.TransGen g.Calls b id

namespace SummaryCache
variable {g : CallGraph} {c : SummaryCache}

theorem sound_empty (g : CallGraph) : Sound g FirstWrite.empty where
  exact := exact_empty g
  closed := fun _ _ h => absurd h Bool.false_ne_true
  called := fun _ h => absurd h Bool.false_ne_true

theorem Sound.insert (h : c.Sound g) {id : RoutineId} {s : Summary}
    (hs : g.AcyclicFrom id → s = g.expansion id)
    (hcallees : ∀ callee, g.Calls id callee → c.contains callee = true)
    (hcalled : ∃ b ∈ g.bodies, Relation.TransGen g.Calls b id) : Sound g (c.insert id s) where
  exact := h.exact.insert hs
  closed := by
    intro q callee hq hcall
    refine (contains_insert c id callee s).mpr (.inr ?_)
    rcases (contains_insert c id q s).mp hq with rfl | hq
    · exact hcallees callee hcall
    · exact h.closed q callee hq hcall
  called := by
    intro q hq
    rcases (contains_insert c id q s).mp hq with rfl | hq
    · exact hcalled
    · exact h.called q hq

end SummaryCache

/-- Apart from the sites that are left, all callees of the routine are in the cache. -/
def SummaryCache.Covers (g : CallGraph) (c : SummaryCache) (id : RoutineId) (rest : List Site) :
    Prop :=
  ∀ s ∈ g.sites id, s ∈ rest ∨ ∀ callee, s.kind = .call callee → c.contains callee = true

namespace SummaryCache
variable {g : CallGraph} {c c' : SummaryCache} {id : RoutineId} {rest : List Site}

/-- The only callee of a site that calls. -/
theorem contains_callee {s : Site} {callee : RoutineId} (hk : s.kind = .call callee)
    (h : c.contains callee = true) (q : RoutineId) (hq : s.kind = .call q) :
    c.contains q = true := by
  obtain rfl : callee = q := by simpa [hk] using hq
  exact h

theorem Covers.mono (h : c.Covers g id rest) (hgrow : c.Grows c') : c'.Covers g id rest :=
  fun s hs => (h s hs).imp_right fun hc callee hk => hgrow _ (hc callee hk)

theorem Covers.pass {s : Site} (h : c.Covers g id (s :: rest))
    (hs : ∀ callee, s.kind = .call callee → c.contains callee = true) : c.Covers g id rest := by
  intro q hq
  rcases h q hq with hmem | hc
  · rcases List.mem_cons.mp hmem with rfl | hmem
    · exact .inr hs
    · exact .inl hmem
  · exact .inr hc

theorem Covers.callees (h : c.Covers g id []) (callee : RoutineId) (hcall : g.Calls id callee) :
    c.contains callee = true := by
  obtain ⟨s, hs, hk⟩ := hcall
  rcases h s hs with hmem | hc
  · exact absurd hmem List.not_mem_nil
  · exact hc callee hk

end SummaryCache

/-- A routine has the effects of its expansion up to the sites that are left. -/
structure Scanned (g : CallGraph) (c : SummaryCache) (id : RoutineId) (es : List Effect)
    (rest : List Site) : Prop where
  effects : Summary.bounded g id (es ++ rest.flatMap fun s => s.inlined id g.expansion) =
    g.expansion id
  covers : c.Covers g id rest

namespace Scanned
variable {g : CallGraph} {c c' : SummaryCache} {id : RoutineId} {es : List Effect} {rest : List Site}

theorem nothing (hid : g.AcyclicFrom id) : Scanned g c id [] (g.sites id) where
  effects := (CallGraph.expansion_eq hid).symm
  covers := fun _ hs => .inl hs

theorem mono (h : Scanned g c id es rest) (hgrow : c.Grows c') : Scanned g c' id es rest where
  effects := h.effects
  covers := h.covers.mono hgrow

theorem add {effects : List Effect} {s : Site} (h : Scanned g c id es (s :: rest))
    (heffects : effects = s.inlined id g.expansion)
    (hs : ∀ callee, s.kind = .call callee → c.contains callee = true) :
    Scanned g c id (es ++ effects) rest where
  effects := by
    rw [← h.effects, heffects, List.flatMap_cons, List.append_assoc]
  covers := h.covers.pass hs

/-- What a routine publishes when it has no sites left. -/
theorem publish (h : Scanned g c id es []) (hc : c.Sound g) (hid : g.AcyclicFrom id)
    (hcalled : ∃ b ∈ g.bodies, Relation.TransGen g.Calls b id) :
    c.publish id (Summary.bounded g id es) = (g.expansion id, c.insert id (g.expansion id)) ∧
      SummaryCache.Sound g (c.insert id (g.expansion id)) := by
  have heffects : Summary.bounded g id es = g.expansion id := by
    simpa using h.effects
  refine ⟨?_, hc.insert (fun _ => rfl) h.covers.callees hcalled⟩
  rw [heffects, SummaryCache.publish]
  cases hget : c.get? id with
  | none => rfl
  | some kept => rw [Option.getD_some, hc.exact _ kept hid hget]

end Scanned

/-- Suspended routines, each waiting for the one before it, and the first of them for a given routine. -/
inductive Waiting (g : CallGraph) (c : SummaryCache) (root : RoutineId) :
    RoutineId → List Task → Prop where
  | root : Waiting g c root root []
  | call {id callee : RoutineId} {n : Nat} {es : List Effect} {s : Site} {outer : List Task} :
      (g.sites id)[n]? = some s → s.kind = .call callee →
      Scanned g c id es (s :: (g.sites id).drop (n + 1)) →
      Waiting g c root id outer → Waiting g c root callee (⟨id, n + 1, es⟩ :: outer)

namespace Waiting
variable {g : CallGraph} {c c' : SummaryCache} {root id : RoutineId} {outer : List Task}

theorem mono (h : Waiting g c root id outer) (hgrow : c.Grows c') : Waiting g c' root id outer := by
  induction h with
  | root => exact .root
  | call hs hk ht _ ih => exact .call hs hk (ht.mono hgrow) ih

theorem calls {n : Nat} {s : Site} {callee : RoutineId} (hs : (g.sites id)[n]? = some s)
    (hk : s.kind = .call callee) : g.Calls id callee :=
  ⟨s, List.mem_of_getElem? hs, hk⟩

theorem reaches (h : Waiting g c root id outer) : g.Reaches root id := by
  induction h with
  | root => exact .refl
  | call hs hk _ _ ih => exact ih.tail (calls hs hk)

theorem leads (h : Waiting g c root id outer) :
    ∀ q ∈ outer.map Task.routine, Relation.TransGen g.Calls q id := by
  induction h with
  | root => simp
  | call hs hk _ _ ih =>
    intro q hq
    rcases List.mem_cons.mp hq with rfl | hq
    · exact .single (calls hs hk)
    · exact (ih q hq).tail (calls hs hk)

end Waiting

namespace Walk
variable {g : CallGraph}

theorem scan_cache (v : View) (t : Task) (outer : List Task) (s : Site) :
    (scan v t outer s).view.cache = v.cache := by
  unfold scan
  split
  · rfl
  · rfl
  · rfl
  · split
    · rfl
    · rfl
    · exact View.mark_cache _ _

def Progress.view : Progress → View
  | running w => w.view
  | finished _ v => v

theorem finish_grows (v : View) (t : Task) (outer : List Task) :
    v.cache.Grows (finish g v t outer).view.cache := by
  unfold finish
  cases outer with
  | nil => exact SummaryCache.grows_insert _ _ _
  | cons parent rest => exact SummaryCache.grows_insert _ _ _

theorem step_grows (w : Walk) : w.view.cache.Grows (w.step g).view.cache := by
  unfold step
  split
  · exact .refl _
  · split
    · exact finish_grows _ _ _
    · rw [Progress.view, scan_cache]
      exact .refl _

/-- A walk that will summarize its root, on a graph without cycles. -/
structure OnTrack (g : CallGraph) (root : RoutineId) (v : View) (t : Task) (outer : List Task) :
    Prop where
  called : ∃ b ∈ g.bodies, Relation.TransGen g.Calls b root
  inner : Scanned g v.cache t.routine t.effects ((g.sites t.routine).drop t.next)
  waiting : Waiting g v.cache root t.routine outer
  marks : ∀ q ∈ v.marks, q ∈ (t :: outer).map Task.routine

section OnTrack
variable {root : RoutineId} {v : View} {t : Task} {outer : List Task}

theorem onTrack_start {root : RoutineId} (hg : g.Acyclic)
    (hcalled : ∃ b ∈ g.bodies, Relation.TransGen g.Calls b root) (hv : v.marks = []) :
    OnTrack g root (v.mark root) ⟨root, 0, []⟩ [] where
  called := hcalled
  inner := Scanned.nothing (hg.acyclicFrom root)
  waiting := .root
  marks := by
    intro q hq
    rcases View.mem_mark.mp hq with rfl | hq
    · exact .head _
    · simp [hv] at hq

theorem OnTrack.mono {c : SummaryCache} (h : OnTrack g root v t outer)
    (hgrow : v.cache.Grows c) : OnTrack g root ⟨c, v.marks⟩ t outer where
  called := h.called
  inner := h.inner.mono hgrow
  waiting := h.waiting.mono hgrow
  marks := h.marks

theorem OnTrack.called_inner (h : OnTrack g root v t outer) :
    ∃ b ∈ g.bodies, Relation.TransGen g.Calls b t.routine := by
  obtain ⟨b, hb, hr⟩ := h.called
  exact ⟨b, hb, hr.trans_left h.waiting.reaches⟩

/-- A callee without a cycle is never among the routines that wait. -/
theorem OnTrack.not_marked {callee : RoutineId} (hg : g.Acyclic) (h : OnTrack g root v t outer)
    (hcall : g.Calls t.routine callee) : callee ∉ v.marks := by
  intro hm
  rcases List.mem_cons.mp (h.marks callee hm) with rfl | hq
  · exact hg _ (.single hcall)
  · exact hg _ ((h.waiting.leads callee hq).tail hcall)

theorem OnTrack.pass {id : RoutineId} {n : Nat} {es effects : List Effect} {s : Site}
    {rest : List Site} (h : OnTrack g root v ⟨id, n, es⟩ outer)
    (hsites : (g.sites id).drop n = s :: rest) (heffects : effects = s.inlined id g.expansion)
    (hs : ∀ callee, s.kind = .call callee → v.cache.contains callee = true) :
    OnTrack g root v ⟨id, n + 1, es ++ effects⟩ outer where
  called := h.called
  inner := by
    have hinner := h.inner
    rw [hsites] at hinner
    rw [(Task.site?_of_drop (t := ⟨id, n, es⟩) hsites).2]
    exact hinner.add heffects hs
  waiting := h.waiting
  marks := h.marks

theorem OnTrack.descend {id callee : RoutineId} {n : Nat} {es : List Effect} {s : Site}
    {rest : List Site} (hg : g.Acyclic) (h : OnTrack g root v ⟨id, n, es⟩ outer)
    (hsites : (g.sites id).drop n = s :: rest) (hk : s.kind = .call callee) :
    OnTrack g root (v.mark callee) ⟨callee, 0, []⟩ (⟨id, n + 1, es⟩ :: outer) where
  called := h.called
  inner := Scanned.nothing (hg.acyclicFrom callee)
  waiting := by
    obtain ⟨hsite, hrest⟩ := Task.site?_of_drop (t := ⟨id, n, es⟩) hsites
    have hinner := h.inner
    rw [hsites, ← hrest] at hinner
    rw [View.mark_cache]
    exact .call hsite hk hinner h.waiting
  marks := by
    intro q hq
    rcases View.mem_mark.mp hq with rfl | hq
    · exact .head _
    · exact .tail _ (h.marks q hq)

theorem OnTrack.scan {id : RoutineId} {n : Nat} {es : List Effect} {s : Site} {rest : List Site}
    (hg : g.Acyclic) (hc : v.cache.Sound g) (h : OnTrack g root v ⟨id, n, es⟩ outer)
    (hsites : (g.sites id).drop n = s :: rest) :
    ∃ t' outer', (Walk.scan v ⟨id, n, es⟩ outer s).stack = t' :: outer' ∧
      OnTrack g root (Walk.scan v ⟨id, n, es⟩ outer s).view t' outer' := by
  have hmem : s ∈ g.sites id := List.mem_of_mem_drop (hsites ▸ List.mem_cons_self)
  cases hk : s.kind with
  | direct action =>
    rw [scan_direct v id n es outer hk]
    exact ⟨_, _, rfl, h.pass hsites (by simp [Site.inlined, hk]) (by simp [hk])⟩
  | inert op =>
    rw [scan_silent v id n es outer (.inl ⟨op, hk⟩), ← List.append_nil es]
    exact ⟨_, _, rfl, h.pass hsites (by simp [Site.inlined, hk]) (by simp [hk])⟩
  | external =>
    rw [scan_silent v id n es outer (.inr hk), ← List.append_nil es]
    exact ⟨_, _, rfl, h.pass hsites (by simp [Site.inlined, hk]) (by simp [hk])⟩
  | call callee =>
    have hcall : g.Calls id callee := ⟨s, hmem, hk⟩
    cases hget : v.cache.get? callee with
    | some summary =>
      rw [scan_cached v id n es outer hk hget]
      have hexact := hc.exact callee summary (hg.acyclicFrom callee) hget
      have hcached := SummaryCache.contains_of_get? hget
      exact ⟨_, _, rfl, h.pass hsites (by simp [Site.inlined, hk, hexact])
        (SummaryCache.contains_callee hk hcached)⟩
    | none =>
      rw [scan_started v id n es outer hk hget (h.not_marked hg hcall)]
      exact ⟨_, _, rfl, h.descend hg hsites hk⟩

theorem OnTrack.unmark {q : RoutineId} (h : OnTrack g root v t outer)
    (hq : q ∈ (v.unmark t.routine).marks) : q ∈ outer.map Task.routine := by
  obtain ⟨hm, hne⟩ := View.mem_unmark.mp hq
  exact (List.mem_cons.mp (h.marks q hm)).resolve_left hne

/-- What a step of a walk on track comes to. -/
theorem OnTrack.step (hg : g.Acyclic) (hc : v.cache.Sound g) (h : OnTrack g root v t outer) :
    (∃ w t' outer', Walk.step g ⟨v, t :: outer⟩ = .running w ∧ w.view.cache.Sound g ∧
      w.stack = t' :: outer' ∧ OnTrack g root w.view t' outer') ∨
    (∃ u, Walk.step g ⟨v, t :: outer⟩ = .finished (g.expansion root) u ∧ u.cache.Sound g ∧
      u.cache.contains root = true ∧ u.marks = []) := by
  obtain ⟨id, n, es⟩ := t
  cases hsites : (g.sites id).drop n with
  | cons s rest =>
    have hsite := (Task.site?_of_drop (t := ⟨id, n, es⟩) hsites).1
    obtain ⟨t', outer', hstack, hafter⟩ := h.scan hg hc hsites
    refine .inl ⟨_, t', outer', by simp only [Walk.step, hsite], ?_, hstack, hafter⟩
    rw [scan_cache]
    exact hc
  | nil =>
    have hend : Task.site? ⟨id, n, es⟩ g = none := by
      simpa [Task.site?, List.drop_eq_nil_iff] using hsites
    have hinner : Scanned g v.cache id es [] := hsites ▸ h.inner
    obtain ⟨hpublish, hsound⟩ := hinner.publish hc (hg.acyclicFrom id) h.called_inner
    have hown : FirstWrite.contains (v.cache.insert id (g.expansion id)) id = true :=
      (SummaryCache.contains_insert _ _ _ _).mpr (.inl rfl)
    cases h.waiting with
    | root =>
      refine .inr ⟨⟨v.cache.insert id (g.expansion id), (v.unmark id).marks⟩, ?_, hsound, hown, ?_⟩
      · simp only [Walk.step, hend, finish, View.unmark_cache, hpublish]
      · exact List.eq_nil_iff_forall_not_mem.mpr fun q hq => List.not_mem_nil (h.unmark hq)
    | @call parent _ m ps s outer hs hk ht hw =>
      have hgrow := SummaryCache.grows_insert v.cache id (g.expansion id)
      have hlast : Task.lastHidden ⟨parent, m + 1, ps⟩ g = s.hidden := by
        simp [Task.lastHidden, hs]
      refine .inl ⟨⟨⟨v.cache.insert id (g.expansion id), (v.unmark id).marks⟩,
        ⟨parent, m + 1, ps ++ (g.expansion id).splice s.hidden⟩ :: outer⟩,
        _, outer, ?_, hsound, rfl, ?_⟩
      · simp only [Walk.step, hend, finish, View.unmark_cache, hpublish, hlast, Task.add]
      · refine ⟨h.called, ?_, hw.mono hgrow, fun q hq => h.unmark hq⟩
        exact (ht.mono hgrow).add (by simp [Site.inlined, hk])
          (SummaryCache.contains_callee hk hown)

end OnTrack

end Walk

end AmbientScope
