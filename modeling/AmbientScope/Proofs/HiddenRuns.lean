import AmbientScope.Flow.Analysis
import AmbientScope.Proofs.Findings
import AmbientScope.Proofs.Hiding
import AmbientScope.Proofs.Nested

/-!
# Analyses of hidden code

The analysis of a program and that of the same program with code hidden go through the same states up to the flags of
the effects: they start the same routines at the same sites and cut the same calls, because neither the cache nor the
marks are asked for more than which routines are there. So a summary keeps its effects and may only have more of them
hidden. A duplicate needs two effects that are not hidden, so no duplicate is new; and no hidden effect is lost.
-/

set_option autoImplicit false

namespace AmbientScope

/-- The same effect, hidden if it was hidden before. -/
def Effect.Darker (e e' : Effect) : Prop :=
  e' = { e with hidden := e'.hidden } ∧ (e.hidden = true → e'.hidden = true)

def Summary.Darker : Summary → Summary → Prop := List.Forall₂ Effect.Darker

/-- The same routines have summaries, with the same effects up to their flags. -/
def SummaryCache.Darker (c c' : SummaryCache) : Prop :=
  ∀ id, Option.Rel Summary.Darker (c.get? id) (c'.get? id)

structure View.Darker (v v' : View) : Prop where
  cache : v.cache.Darker v'.cache
  marks : v'.marks = v.marks

namespace Effect.Darker
variable {e e' : Effect} (h : e.Darker e')
include h

theorem action : e'.action = e.action := by
  rw [h.1]

theorem through {a b : Bool} (hab : a = true → b = true) :
    (e.through a).Darker (e'.through b) := by
  obtain ⟨hsame, hhidden⟩ := h
  refine ⟨by rw [hsame]; rfl, fun hh => ?_⟩
  rcases Bool.or_eq_true_iff.mp hh with he | ha
  · exact Bool.or_eq_true_iff.mpr (.inl (hhidden he))
  · exact Bool.or_eq_true_iff.mpr (.inr (hab ha))

end Effect.Darker

namespace Site.Darker
variable {s s' : Site} (h : s.Darker s')
include h

theorem kind : s'.kind = s.kind := by
  rw [h.1]

theorem index : s'.index = s.index := by
  rw [h.1]

theorem effect (id : RoutineId) (a : Action) : (s.effect id a).Darker (s'.effect id a) := by
  obtain ⟨hsame, hhidden⟩ := h
  exact ⟨by rw [hsame]; rfl, hhidden⟩

theorem splice {t t' : Summary} (ht : t.Darker t') :
    (t.splice s.hidden).Darker (t'.splice s'.hidden) := by
  apply List.rel_map _ ht
  intro e e' he
  exact he.through h.2

end Site.Darker

section Options
variable {α β : Type} {R : α → β → Prop} {x : Option α} {y : Option β} (h : Option.Rel R x y)
include h

theorem eq_none_of_rel (hx : x = none) : y = none := by
  cases h with
  | none => rfl
  | some _ => simp at hx

theorem eq_some_of_rel {a : α} (hx : x = some a) : ∃ b, y = some b ∧ R a b := by
  cases h with
  | none => simp at hx
  | some hab =>
    obtain rfl := Option.some.inj hx
    exact ⟨_, rfl, hab⟩

end Options

theorem forall₂_getElem? {α β : Type} {R : α → β → Prop} {xs : List α} {ys : List β}
    (h : List.Forall₂ R xs ys) (i : Nat) : Option.Rel R xs[i]? ys[i]? := by
  induction h generalizing i with
  | nil => exact .none
  | cons hxy _ ih =>
    cases i with
    | zero => exact .some hxy
    | succ i => simpa using ih i

namespace CallGraph.Darker
variable {g g' : CallGraph} (h : g.Darker g')
include h

theorem routine? (id : RoutineId) : Option.Rel Routine.Darker (g.routine? id) (g'.routine? id) :=
  forall₂_getElem? h id

theorem sites (id : RoutineId) : List.Forall₂ Site.Darker (g.sites id) (g'.sites id) := by
  unfold CallGraph.sites
  cases hr : g.routine? id with
  | none =>
    rw [eq_none_of_rel (h.routine? id) hr]
    exact .nil
  | some r =>
    obtain ⟨r', hr', hdark⟩ := eq_some_of_rel (h.routine? id) hr
    rw [hr']
    exact hdark.2

theorem boundary? (id : RoutineId) : g'.boundary? id = g.boundary? id := by
  unfold CallGraph.boundary?
  cases hr : g.routine? id with
  | none =>
    rw [eq_none_of_rel (h.routine? id) hr]
  | some r =>
    obtain ⟨r', hr', hdark⟩ := eq_some_of_rel (h.routine? id) hr
    rw [hr', hdark.1]
    rfl

theorem bodies : g'.bodies = g.bodies := by
  obtain ⟨routines⟩ := g
  obtain ⟨routines'⟩ := g'
  unfold CallGraph.bodies
  change List.Forall₂ Routine.Darker routines routines' at h
  induction h with
  | nil => rfl
  | cons hr _ ih =>
    rw [List.filter_cons, List.filter_cons, hr.1]
    split
    · rw [List.map_cons, List.map_cons, ih]
    · exact ih

theorem bounded (id : RoutineId) {t t' : Summary} (ht : t.Darker t') :
    (Summary.bounded g id t).Darker (Summary.bounded g' id t') := by
  unfold Summary.bounded
  rw [h.boundary? id]
  split
  · exact .cons ⟨rfl, fun hh => hh⟩ ht
  · exact ht

end CallGraph.Darker

namespace View
variable {v v' : View} (h : v.Darker v')
include h

theorem Darker.mark (id : RoutineId) : (v.mark id).Darker (v'.mark id) := by
  refine ⟨by simpa using h.cache, ?_⟩
  unfold View.mark
  rw [h.marks]
  split
  · exact h.marks
  · rfl

theorem Darker.unmark (id : RoutineId) : (v.unmark id).Darker (v'.unmark id) :=
  ⟨h.cache, by simp [View.unmark, h.marks]⟩

end View

theorem SummaryCache.Darker.publish {c c' : SummaryCache} (h : c.Darker c') (id : RoutineId)
    {t t' : Summary} (ht : t.Darker t') :
    Summary.Darker (c.publish id t).1 (c'.publish id t').1 ∧
      SummaryCache.Darker (c.publish id t).2 (c'.publish id t').2 := by
  have hkept : Summary.Darker ((c.get? id).getD t) ((c'.get? id).getD t') := by
    cases hc : c.get? id with
    | none =>
      rw [eq_none_of_rel (h id) hc]
      exact ht
    | some s =>
      obtain ⟨s', hc', hs⟩ := eq_some_of_rel (h id) hc
      rw [hc']
      exact hs
  refine ⟨hkept, fun q => ?_⟩
  simp only [SummaryCache.publish, FirstWrite.get?_insert]
  split
  · exact .some hkept
  · exact h q

namespace Nested
variable {g g' : CallGraph} (hg : g.Darker g')
include hg

/-- Both runs end a routine that both have marked, with what they have cached since. -/
theorem close_darker {v v' : View} (hv : v.Darker v') (id : RoutineId) {es es' : List Effect}
    {c c' : SummaryCache} (hes : Summary.Darker es es') (hc : c.Darker c') :
    (close g { v.mark id with cache := c } id es).1.Darker
        (close g' { v'.mark id with cache := c' } id es').1 ∧
      (close g { v.mark id with cache := c } id es).2.Darker
        (close g' { v'.mark id with cache := c' } id es').2 := by
  obtain ⟨hsummary, hcache⟩ := hc.publish id (hg.bounded id hes)
  rw [close_eq_publish, close_eq_publish]
  exact ⟨hsummary, hcache, ((hv.mark id).unmark id).marks⟩

theorem effects_darker (v : View) (id : RoutineId) (sites : List Site) {v' : View}
    {sites' : List Site} (hv : v.Darker v') (hsites : List.Forall₂ Site.Darker sites sites') :
    Summary.Darker (effects g v id sites).1 (effects g' v' id sites').1 ∧
      SummaryCache.Darker (effects g v id sites).2 (effects g' v' id sites').2 := by
  -- the case depends on the kind of the site, the keys of the cache and the marks, which both runs share
  induction v, id, sites using effects_induction (g := g) generalizing v' sites' with
  | nil v id =>
    cases hsites
    rw [effects_nil, effects_nil]
    exact ⟨.nil, hv.cache⟩
  | direct v id s rest action hk ih =>
    cases hsites with
    | cons hs hrest =>
      obtain ⟨hes, hcache⟩ := ih hv hrest
      rw [effects_direct g v id rest hk, effects_direct g' v' id _ (hs.kind.trans hk)]
      exact ⟨.cons (hs.effect id action) hes, hcache⟩
  | silent v id s rest hk ih =>
    cases hsites with
    | cons hs hrest =>
      rw [effects_silent g v id rest hk, effects_silent g' v' id _ (by rwa [hs.kind])]
      exact ih hv hrest
  | cached v id s rest callee summary hk hc ih =>
    cases hsites with
    | cons hs hrest =>
      obtain ⟨summary', hc', hsummary⟩ := eq_some_of_rel (hv.cache callee) hc
      obtain ⟨hes, hcache⟩ := ih hv hrest
      rw [effects_cached g v id rest hk hc, effects_cached g' v' id _ (hs.kind.trans hk) hc']
      exact ⟨List.rel_append (hs.splice hsummary) hes, hcache⟩
  | cut v id s rest callee hk hc hm ih =>
    cases hsites with
    | cons hs hrest =>
      have hc' := eq_none_of_rel (hv.cache callee) hc
      rw [effects_cut g v id rest hk hc hm,
        effects_cut g' v' id _ (hs.kind.trans hk) hc' (hv.marks ▸ hm)]
      exact ih hv hrest
  | started v id s rest callee hk hc hm ihBody ihRest =>
    cases hsites with
    | cons hs hrest =>
      have hc' := eq_none_of_rel (hv.cache callee) hc
      obtain ⟨hbody, hbodyCache⟩ := ihBody (hv.mark callee) (hg.sites callee)
      obtain ⟨hsummary, hdone⟩ := close_darker hg hv callee hbody hbodyCache
      obtain ⟨hes, hcache⟩ := ihRest hdone hrest
      rw [effects_started g v id rest hk hc hm,
        effects_started g' v' id _ (hs.kind.trans hk) hc' (hv.marks ▸ hm)]
      exact ⟨List.rel_append (hs.splice hsummary) hes, hcache⟩

theorem start_darker {v v' : View} (hv : v.Darker v') (id : RoutineId) :
    (start g v id).1.Darker (start g' v' id).1 ∧ (start g v id).2.Darker (start g' v' id).2 := by
  obtain ⟨hbody, hcache⟩ := effects_darker hg _ id _ (hv.mark id) (hg.sites id)
  exact close_darker hg hv id hbody hcache

end Nested

section Runs
variable {g g' : CallGraph} (hg : g.Darker g')
include hg

theorem summarize_darker {v v' : View} (hv : v.Darker v') (id : RoutineId) :
    ∃ t t' u u', summarize g false v id = (.ok t, u) ∧ summarize g' false v' id = (.ok t', u') ∧
      t.Darker t' ∧ u.Darker u' := by
  cases hc : v.cache.get? id with
  | none =>
    have hc' := eq_none_of_rel (hv.cache id) hc
    obtain ⟨ht, hu⟩ := Nested.start_darker hg hv id
    exact ⟨_, _, _, _, summarize_of_uncached hc, summarize_of_uncached hc', ht, hu⟩
  | some t =>
    obtain ⟨t', hc', ht⟩ := eq_some_of_rel (hv.cache id) hc
    exact ⟨t, t', v, v', by simp [summarize, hc], by simp [summarize, hc'], ht, hv⟩

end Runs

end AmbientScope
