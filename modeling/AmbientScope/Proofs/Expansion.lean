import AmbientScope.Proofs.Nested

/-!
# Expansions

The expansion of a routine has its calls replaced by the expansions of the callees, as deep as calls go. It is the
unrolling to as many calls as there are routines, which is deep enough for every routine from which no cycle
is reachable. For these routines a summary is the expansion, whatever cache of such summaries it starts from: the
routines that carry a mark all lead to the one that is scanned, so none of them is called by it without a cycle.
-/

set_option autoImplicit false

namespace AmbientScope

/-- What a site contributes, given what its callee does. -/
def Site.inlined (s : Site) (routine : RoutineId) (summaryOf : RoutineId → Summary) : List Effect :=
  match s.kind with
  | .direct action => [s.effect routine action]
  | .call callee => (summaryOf callee).splice s.hidden
  | .inert _ => []
  | .external => []

theorem Site.inlined_congr {s : Site} {routine : RoutineId} {f f' : RoutineId → Summary}
    (h : ∀ callee, s.kind = .call callee → f callee = f' callee) :
    s.inlined routine f = s.inlined routine f' := by
  unfold inlined
  split
  · rfl
  · rename_i callee hk
    rw [h callee hk]
  · rfl
  · rfl

namespace CallGraph
variable {g : CallGraph} {id : RoutineId}

/-- The effects of a routine with calls replaced by those of the callee, so many routines deep. -/
def unroll (g : CallGraph) : (depth : Nat) → RoutineId → Summary
  | 0, _ => []
  | depth + 1, id =>
    Summary.bounded g id ((g.sites id).flatMap fun s => s.inlined id (g.unroll depth))

/-- The effects of a routine with all calls replaced. -/
def expansion (g : CallGraph) (id : RoutineId) : Summary := g.unroll g.size id

theorem unroll_of_size_le (h : g.size ≤ id) (depth : Nat) : g.unroll depth id = [] := by
  cases depth with
  | zero => rfl
  | succ depth => simp [unroll, sites_of_size_le h, Summary.bounded, boundary?_of_size_le h]

/-- Unrolling further than to the routines below changes nothing. -/
theorem unroll_succ_eq {depth : Nat} (h : g.AcyclicFrom id) (hd : (g.below id).card ≤ depth) :
    g.unroll (depth + 1) id = g.unroll depth id := by
  induction depth generalizing id with
  | zero =>
    have hout : g.size ≤ id := by
      by_contra hlt
      have hpos := Finset.card_pos.mpr ⟨id, mem_below_self (Nat.lt_of_not_le hlt)⟩
      omega
    rw [unroll_of_size_le hout, unroll_of_size_le hout]
  | succ depth ih =>
    rw [unroll, unroll]
    congr 1
    apply List.flatMap_congr
    intro s hs
    apply Site.inlined_congr
    intro callee hk
    have hc : g.Calls id callee := ⟨s, hs, hk⟩
    have hlt := h.card_below_lt hc
    exact ih (h.of_calls hc) (by omega)

/-- The expansion is defined by recursion along calls. -/
theorem expansion_eq (h : g.AcyclicFrom id) :
    g.expansion id =
      Summary.bounded g id ((g.sites id).flatMap fun s => s.inlined id g.expansion) :=
  (unroll_succ_eq h (g.card_below_le id)).symm

end CallGraph

namespace SummaryCache

/-- Every routine without a cycle below it has its expansion, if it has an entry. -/
def Exact (g : CallGraph) (c : SummaryCache) : Prop :=
  ∀ id s, g.AcyclicFrom id → c.get? id = some s → s = g.expansion id

theorem exact_empty (g : CallGraph) : Exact g FirstWrite.empty := by
  intro id s _ h
  simp at h

theorem Exact.insert {g : CallGraph} {c : SummaryCache} (h : c.Exact g) {id : RoutineId}
    {s : Summary} (hs : g.AcyclicFrom id → s = g.expansion id) : Exact g (c.insert id s) := by
  intro q t hq ht
  rw [FirstWrite.get?_insert] at ht
  by_cases hqid : q = id
  · subst hqid
    cases hc : c.get? q with
    | some kept =>
      have heq : kept = t := by simpa [hc] using ht
      exact heq ▸ h q kept hq hc
    | none =>
      have heq : s = t := by simpa [hc] using ht
      exact heq ▸ hs hq
  · exact h q t hq (by simpa [hqid] using ht)

end SummaryCache

namespace Nested
variable {g : CallGraph}

theorem close_exact {v : View} {id : RoutineId} {es : List Effect} (hcache : v.cache.Exact g)
    (hes : g.AcyclicFrom id → es = (g.sites id).flatMap fun s => s.inlined id g.expansion) :
    (close g v id es).2.cache.Exact g ∧
      (g.AcyclicFrom id → (close g v id es).1 = g.expansion id) := by
  have hbounded : g.AcyclicFrom id → Summary.bounded g id es = g.expansion id := fun hid => by
    rw [hes hid, ← CallGraph.expansion_eq hid]
  have hafter : (close g v id es).2.cache.Exact g := by
    rw [close_cache]
    exact hcache.insert hbounded
  exact ⟨hafter, fun hid => hafter id _ hid (get?_close g v id es)⟩

/-- The marks are those of the routines around, so each of them leads to the routine that is scanned. -/
theorem effects_exact (v : View) (id : RoutineId) (sites : List Site)
    (hsites : sites ⊆ g.sites id) (hmarks : ∀ q ∈ v.marks, g.Reaches q id)
    (hcache : v.cache.Exact g) :
    (effects g v id sites).2.Exact g ∧
      (g.AcyclicFrom id →
        (effects g v id sites).1 = sites.flatMap fun s => s.inlined id g.expansion) := by
  induction v, id, sites using effects_induction (g := g) with
  | nil v id => simpa using hcache
  | direct v id s rest action hk ih =>
    obtain ⟨hafter, heffects⟩ := ih (fun _ h => hsites (.tail _ h)) hmarks hcache
    rw [effects_direct g v id rest hk]
    exact ⟨hafter, fun hid => by simp [heffects hid, Site.inlined, hk]⟩
  | silent v id s rest hk ih =>
    obtain ⟨hafter, heffects⟩ := ih (fun _ h => hsites (.tail _ h)) hmarks hcache
    rw [effects_silent g v id rest hk]
    refine ⟨hafter, fun hid => ?_⟩
    rcases hk with ⟨op, hk⟩ | hk <;> simp [heffects hid, Site.inlined, hk]
  | cached v id s rest callee summary hk hc ih =>
    obtain ⟨hafter, heffects⟩ := ih (fun _ h => hsites (.tail _ h)) hmarks hcache
    rw [effects_cached g v id rest hk hc]
    refine ⟨hafter, fun hid => ?_⟩
    have hcallee := hid.of_calls ⟨s, hsites (.head _), hk⟩
    simp [heffects hid, Site.inlined, hk, hcache callee summary hcallee hc]
  | cut v id s rest callee hk hc hm ih =>
    obtain ⟨hafter, _⟩ := ih (fun _ h => hsites (.tail _ h)) hmarks hcache
    rw [effects_cut g v id rest hk hc hm]
    refine ⟨hafter, fun hid => ?_⟩
    exact absurd (hmarks callee hm) (hid.not_reaches ⟨s, hsites (.head _), hk⟩)
  | started v id s rest callee hk hc hm ihBody ihRest =>
    have hcalls : g.Calls id callee := ⟨s, hsites (.head _), hk⟩
    have hbodyMarks : ∀ q ∈ (v.mark callee).marks, g.Reaches q callee := by
      intro q hq
      rcases View.mem_mark.mp hq with rfl | hq
      · exact .refl
      · exact (hmarks q hq).tail hcalls
    obtain ⟨hbody, hbodyEffects⟩ := ihBody (List.Subset.refl _) hbodyMarks (by simpa using hcache)
    obtain ⟨hdone, hdoneSummary⟩ :=
      close_exact (v := { v.mark callee with cache := _ }) hbody hbodyEffects
    obtain ⟨hafter, heffects⟩ := ihRest (fun _ h => hsites (.tail _ h))
      (by rwa [start_marks hm]) hdone
    rw [effects_started g v id rest hk hc hm]
    refine ⟨hafter, fun hid => ?_⟩
    have hsummary : (start g v callee).1 = g.expansion callee :=
      hdoneSummary (hid.of_calls hcalls)
    simp [heffects hid, Site.inlined, hk, hsummary]

theorem start_exact {v : View} (id : RoutineId) (hmarks : v.marks = [])
    (hcache : v.cache.Exact g) :
    (start g v id).2.cache.Exact g ∧ (start g v id).2.marks = [] ∧
      (g.AcyclicFrom id → (start g v id).1 = g.expansion id) := by
  have hmem : id ∉ v.marks := by simp [hmarks]
  have hself : ∀ q ∈ (v.mark id).marks, g.Reaches q id := by
    intro q hq
    rcases View.mem_mark.mp hq with rfl | hq
    · exact .refl
    · simp [hmarks] at hq
  obtain ⟨hbody, heffects⟩ := effects_exact (v.mark id) id (g.sites id) (List.Subset.refl _) hself
    (by simpa using hcache)
  obtain ⟨hafter, hsummary⟩ := close_exact (v := { v.mark id with cache := _ }) hbody heffects
  exact ⟨hafter, (start_marks hmem).trans hmarks, hsummary⟩

end Nested

theorem summarize_exact {g : CallGraph} {v : View} (id : RoutineId) (hmarks : v.marks = [])
    (hcache : v.cache.Exact g) :
    ∃ s u, summarize g false v id = (.ok s, u) ∧ u.marks = [] ∧ u.cache.Exact g ∧
      (g.AcyclicFrom id → s = g.expansion id) := by
  cases hc : v.cache.get? id with
  | some s => exact ⟨s, v, by simp [summarize, hc], hmarks, hcache, fun hid => hcache id s hid hc⟩
  | none =>
    obtain ⟨hafter, hquiet, hsummary⟩ := Nested.start_exact id hmarks hcache
    exact ⟨_, _, summarize_of_uncached hc, hquiet, hafter, hsummary⟩

end AmbientScope
