import AmbientScope.Proofs.OneJob
import AmbientScope.Proofs.Renumbering

/-!
# Runs on renumbered routines

A run on a graph and the run on a larger graph that starts with the same routine under its other number go through the
same states: wherever the small run asks for a mark or for a cached summary, the large one asks for those of the same
routine and gets the same answer up to origins. The large run never touches a routine that is not in the small graph.
-/

set_option autoImplicit false

namespace AmbientScope

namespace SummaryCache

/-- Routines have the same summaries under their other numbers. -/
def Carried (f : RoutineId → RoutineId) (c c' : SummaryCache) : Prop :=
  ∀ id, c'.get? (f id) = (c.get? id).map (Summary.renumber f)

/-- The second cache has nothing new for routines that come from elsewhere. -/
def Spares (f : RoutineId → RoutineId) (c c' : SummaryCache) : Prop :=
  ∀ q, (∀ id, f id ≠ q) → c'.get? q = c.get? q

variable {f : RoutineId → RoutineId} {c c' d : SummaryCache}

theorem Spares.refl (f : RoutineId → RoutineId) (c : SummaryCache) : c.Spares f c :=
  fun _ _ => rfl

theorem Spares.trans (h : c.Spares f c') (h' : c'.Spares f d) : c.Spares f d :=
  fun q hq => (h' q hq).trans (h q hq)

theorem spares_insert (c : SummaryCache) (id : RoutineId) (s : Summary) :
    c.Spares f (c.insert (f id) s) := by
  intro q hq
  rw [FirstWrite.get?_insert, if_neg fun h => hq id h.symm]

theorem Carried.uncached (h : c.Carried f c') {id : RoutineId} (hc : c.get? id = none) :
    c'.get? (f id) = none := by
  rw [h id, hc]
  rfl

theorem Carried.cached (h : c.Carried f c') {id : RoutineId} {s : Summary}
    (hc : c.get? id = some s) : c'.get? (f id) = some (s.renumber f) := by
  rw [h id, hc]
  rfl

theorem Carried.mem_keys (h : c.Carried f c') (id : RoutineId) : f id ∈ c'.keys ↔ id ∈ c.keys := by
  rw [← FirstWrite.contains_iff_mem_keys, ← FirstWrite.contains_iff_mem_keys, FirstWrite.contains,
    FirstWrite.contains, h id, Option.isSome_map]

theorem Carried.publish (hf : Function.Injective f) (h : c.Carried f c') (id : RoutineId)
    (s : Summary) :
    (c'.publish (f id) (s.renumber f)).1 = (c.publish id s).1.renumber f ∧
      Carried f (c.publish id s).2 (c'.publish (f id) (s.renumber f)).2 := by
  have hkept : (c'.get? (f id)).getD (s.renumber f) = ((c.get? id).getD s).renumber f := by
    rw [h id]
    cases c.get? id <;> rfl
  refine ⟨hkept, fun q => ?_⟩
  simp only [SummaryCache.publish, FirstWrite.get?_insert, hf.eq_iff, hkept]
  split
  · rfl
  · exact h q

end SummaryCache

/-- The second worker sees of the routines in the small graph what the first worker sees. -/
structure View.Carried (f : RoutineId → RoutineId) (v v' : View) : Prop where
  cache : v.cache.Carried f v'.cache
  marks : ∀ id, f id ∈ v'.marks ↔ id ∈ v.marks

theorem View.Carried.mark {f : RoutineId → RoutineId} (hf : Function.Injective f) {v v' : View}
    (h : v.Carried f v') (id : RoutineId) : (v.mark id).Carried f (v'.mark (f id)) where
  cache := by simpa using h.cache
  marks := by
    intro q
    rw [View.mem_mark, View.mem_mark, hf.eq_iff, h.marks q]

namespace Nested
variable {f : RoutineId → RoutineId} {g g' : CallGraph} (hg : g.Embeds f g')
include hg

/-- Both runs end a routine that both have marked, with what they have cached since. -/
theorem close_carried {v v' : View} (hv : v.Carried f v') (id : RoutineId) (es : List Effect)
    {c c' : SummaryCache} (hc : c.Carried f c') :
    (close g' { v'.mark (f id) with cache := c' } (f id) (Summary.renumber f es)).1 =
        (close g { v.mark id with cache := c } id es).1.renumber f ∧
      (close g { v.mark id with cache := c } id es).2.Carried f
        (close g' { v'.mark (f id) with cache := c' } (f id) (Summary.renumber f es)).2 ∧
      c'.Spares f
        (close g' { v'.mark (f id) with cache := c' } (f id) (Summary.renumber f es)).2.cache := by
  obtain ⟨hsummary, hcache⟩ := hc.publish hg.injective id (Summary.bounded g id es)
  rw [← hg.bounded] at hsummary hcache
  rw [close_eq_publish, close_eq_publish]
  refine ⟨hsummary, ⟨hcache, fun q => ?_⟩, SummaryCache.spares_insert c' id _⟩
  change f q ∈ ((v'.mark (f id)).unmark (f id)).marks ↔ q ∈ ((v.mark id).unmark id).marks
  rw [View.mem_unmark, View.mem_unmark, (hv.mark hg.injective id).marks q, Ne, hg.injective.eq_iff]

theorem effects_carried (v : View) (id : RoutineId) (sites : List Site) {v' : View}
    (hv : v.Carried f v') :
    (effects g' v' (f id) (sites.map (Site.renumber f))).1 =
        Summary.renumber f (effects g v id sites).1 ∧
      SummaryCache.Carried f (effects g v id sites).2
        (effects g' v' (f id) (sites.map (Site.renumber f))).2 ∧
      v'.cache.Spares f (effects g' v' (f id) (sites.map (Site.renumber f))).2 := by
  -- the case depends on the kind of the site, the keys of the cache and the marks, which both runs share
  induction v, id, sites using effects_induction (g := g) generalizing v' with
  | nil v id =>
    rw [List.map_nil, effects_nil, effects_nil]
    exact ⟨rfl, hv.cache, .refl f _⟩
  | direct v id s rest action hk ih =>
    obtain ⟨hes, hcache, hspares⟩ := ih hv
    rw [List.map_cons, effects_direct g v id rest hk,
      effects_direct g' v' (f id) _ (Site.kind_renumber f hk), hes]
    exact ⟨rfl, hcache, hspares⟩
  | silent v id s rest hk ih =>
    have hk' : (∃ op, (s.renumber f).kind = .inert op) ∨ (s.renumber f).kind = .external := by
      rcases hk with ⟨op, hk⟩ | hk
      · exact .inl ⟨op, Site.kind_renumber f hk⟩
      · exact .inr (Site.kind_renumber f hk)
    rw [List.map_cons, effects_silent g v id rest hk, effects_silent g' v' (f id) _ hk']
    exact ih hv
  | cached v id s rest callee summary hk hc ih =>
    obtain ⟨hes, hcache, hspares⟩ := ih hv
    rw [List.map_cons, effects_cached g v id rest hk hc,
      effects_cached g' v' (f id) _ (Site.kind_renumber f hk) (hv.cache.cached hc), hes,
      Summary.splice_renumber, Summary.renumber_append]
    exact ⟨rfl, hcache, hspares⟩
  | cut v id s rest callee hk hc hm ih =>
    rw [List.map_cons, effects_cut g v id rest hk hc hm,
      effects_cut g' v' (f id) _ (Site.kind_renumber f hk) (hv.cache.uncached hc)
        ((hv.marks callee).mpr hm)]
    exact ih hv
  | started v id s rest callee hk hc hm ihBody ihRest =>
    have hm' : f callee ∉ v'.marks := fun h => hm ((hv.marks callee).mp h)
    obtain ⟨hbody, hbodyCache, hbodySpares⟩ := ihBody (hv.mark hg.injective callee)
    obtain ⟨hsummary, hdone, hdoneSpares⟩ := close_carried hg hv callee
      (effects g (v.mark callee) callee (g.sites callee)).1 hbodyCache
    rw [← hbody, ← hg.sites callee] at hsummary hdone hdoneSpares
    obtain ⟨hes, hcache, hspares⟩ := ihRest hdone
    rw [← hg.sites callee, View.mark_cache] at hbodySpares
    rw [List.map_cons, effects_started g v id rest hk hc hm,
      effects_started g' v' (f id) _ (Site.kind_renumber f hk) (hv.cache.uncached hc) hm']
    refine ⟨?_, hcache, hbodySpares.trans (hdoneSpares.trans hspares)⟩
    have hstart : (start g' v' (f callee)).1 = (start g v callee).1.renumber f := hsummary
    rw [Summary.renumber_append, ← Summary.splice_renumber, ← hstart]
    exact congrArg _ hes

theorem start_carried {v v' : View} (hv : v.Carried f v') (id : RoutineId) :
    (start g' v' (f id)).1 = (start g v id).1.renumber f ∧
      (start g v id).2.Carried f (start g' v' (f id)).2 ∧
      v'.cache.Spares f (start g' v' (f id)).2.cache := by
  obtain ⟨hbody, hcache, hspares⟩ := effects_carried hg _ id (g.sites id) (hv.mark hg.injective id)
  obtain ⟨hsummary, hdone, hclose⟩ := close_carried hg hv id
    (effects g (v.mark id) id (g.sites id)).1 hcache
  rw [← hbody, ← hg.sites id] at hsummary hdone hclose
  rw [← hg.sites id, View.mark_cache] at hspares
  exact ⟨hsummary, hdone, hspares.trans hclose⟩

end Nested

/-- Two workers between two checks: neither has marks, and they see the same of the routines in the small graph. -/
structure View.Rests (f : RoutineId → RoutineId) (v v' : View) : Prop where
  cache : v.cache.Carried f v'.cache
  marks : v.marks = []
  marks' : v'.marks = []

theorem View.Rests.empty (f : RoutineId → RoutineId) : View.Rests f {} {} :=
  ⟨fun _ => rfl, rfl, rfl⟩

theorem View.Rests.carried {f : RoutineId → RoutineId} {v v' : View} (h : v.Rests f v') :
    v.Carried f v' where
  cache := h.cache
  marks := by simp [h.marks, h.marks']

section Runs
variable {f : RoutineId → RoutineId} {g g' : CallGraph} (hg : g.Embeds f g')
include hg

theorem summarize_carried {v v' : View} (hv : v.Rests f v') (id : RoutineId) :
    ∃ s u u', summarize g false v id = (.ok s, u) ∧
      summarize g' false v' (f id) = (.ok (s.renumber f), u') ∧ u.Rests f u' ∧
      v'.cache.Spares f u'.cache := by
  cases hc : v.cache.get? id with
  | none =>
    obtain ⟨hsummary, hcarried, hspares⟩ := Nested.start_carried hg hv.carried id
    have hmarks := @Nested.start_marks g v id (by simp [hv.marks])
    have hmarks' := @Nested.start_marks g' v' (f id) (by simp [hv.marks'])
    refine ⟨_, _, _, summarize_of_uncached hc, ?_, ⟨hcarried.cache, hmarks.trans hv.marks,
      hmarks'.trans hv.marks'⟩, hspares⟩
    rw [summarize_of_uncached (hv.cache.uncached hc), hsummary]
  | some s =>
    exact ⟨s, v, v', by simp [summarize, hc], by simp [summarize, hv.cache.cached hc], hv, .refl f _⟩

namespace Detection

theorem contribution_carried {v v' : View} (hv : v.Rests f v') (id : RoutineId) (s : Site) :
    ∃ es u u', contribution g false v id s = (.ok es, u) ∧
      contribution g' false v' (f id) (s.renumber f) = (.ok (Summary.renumber f es), u') ∧
      u.Rests f u' ∧ v'.cache.Spares f u'.cache := by
  unfold contribution
  simp only [Site.renumber]
  cases s.kind with
  | direct action => exact ⟨_, v, v', rfl, rfl, hv, .refl f _⟩
  | inert op => exact ⟨_, v, v', rfl, rfl, hv, .refl f _⟩
  | external => exact ⟨_, v, v', rfl, rfl, hv, .refl f _⟩
  | call callee =>
    obtain ⟨t, u, u', hsum, hsum', hu, hspares⟩ := summarize_carried hg hv callee
    refine ⟨t.splice s.hidden, u, u', by simp only [hsum], ?_, hu, hspares⟩
    simp only [SiteClass.renumber, hsum', Summary.splice_renumber]

theorem contributions_carried (id : RoutineId) (sites : List Site) {v v' : View}
    (hv : v.Rests f v') :
    ∃ all u u', contributions g false v id sites = (.ok all, u) ∧
      contributions g' false v' (f id) (sites.map (Site.renumber f)) =
        (.ok (all.map (renumber f)), u') ∧
      u.Rests f u' ∧ v'.cache.Spares f u'.cache := by
  induction sites generalizing v v' with
  | nil => exact ⟨[], v, v', rfl, rfl, hv, .refl f _⟩
  | cons s rest ih =>
    obtain ⟨es, u, u', hat, hat', hu, hspares⟩ := contribution_carried hg hv id s
    obtain ⟨all, w, w', hrest, hrest', hw, hspares'⟩ := ih hu
    refine ⟨(s, es) :: all, w, w', ?_, ?_, hw, hspares.trans hspares'⟩
    · simp only [contributions, hat, hrest]
    · simp only [List.map_cons, contributions, hat', hrest', renumber]

end Detection

/-- A routine is reported on alike under both numbers. -/
theorem check_carried (rules : Rules) {v v' : View} (hv : v.Rests f v') (id : RoutineId) :
    ∃ report u u', check g rules false v id = (.ok report, u) ∧
      check g' rules false v' (f id) = (.ok report, u') ∧ u.Rests f u' ∧
      v'.cache.Spares f u'.cache := by
  cases hr : g.routine? id with
  | none =>
    have hr' := eq_none_of_rel (hg.routine? id) hr
    exact ⟨[], v, v', by simp [check, hr], by simp [check, hr'], hv, .refl f _⟩
  | some r =>
    obtain ⟨r', hr', hsame⟩ := eq_some_of_rel (hg.routine? id) hr
    obtain ⟨all, u, u', hall, hall', hu, hspares⟩ :=
      Detection.contributions_carried hg r.id r.sites hv
    have hid : r'.id = f r.id := by rw [hsame]
    have hsites : r'.sites = r.sites.map (Site.renumber f) := by rw [hsame]
    rw [← hid, ← hsites] at hall'
    have hreport : Detection.reportOf rules r' [] (all.map (Detection.renumber f)) =
        Detection.reportOf rules r [] all := Detection.reportOf_renumbered f rules hsame [] all
    refine ⟨_, u, u', check_of_contributions hr hall, ?_, hu, hspares⟩
    rw [check_of_contributions hr' hall', hreport]

theorem checkEach_carried (rules : Rules) (ids : List RoutineId) {v v' : View} (hv : v.Rests f v') :
    ∃ reports u u', checkEach g rules false v ids = (.ok reports, u) ∧
      checkEach g' rules false v' (ids.map f) = (.ok reports, u') ∧ u.Rests f u' := by
  induction ids generalizing v v' with
  | nil => exact ⟨[], v, v', rfl, rfl, hv⟩
  | cons id rest ih =>
    obtain ⟨report, w, w', hcheck, hcheck', hw, _⟩ := check_carried hg rules hv id
    obtain ⟨reports, u, u', heach, heach', hu⟩ := ih hw
    refine ⟨report :: reports, u, u', ?_, ?_, hu⟩
    · simp only [checkEach, hcheck, heach]
    · simp only [List.map_cons, checkEach, hcheck', heach']

end Runs

end AmbientScope
