import AmbientScope.Proofs.Visits

/-!
# Fresh summaries are complete

Inside a cycle summaries are cut short, but a summary that is computed from an empty cache mentions every action of
every routine that its root reaches. Each of these routines is started once, and from then on its actions are among
the effects gathered by the routines in progress. When the root ends, all of them have been visited.
-/

set_option autoImplicit false

namespace AmbientScope

/-- The actions of a routine itself, with their origins. -/
inductive CallGraph.Introduces (g : CallGraph) (id : RoutineId) : Action → Origin → Prop where
  | boundary {label : String} :
      g.boundary? id = some label → Introduces g id (.push label) (.boundary id)
  | site {s : Site} {action : Action} :
      s ∈ g.sites id → s.kind = .direct action → Introduces g id action (.site id s.index)

namespace Summary

/-- Some effect of the summary, hidden or not, has this action and this origin. -/
def Mentions (s : Summary) (action : Action) (origin : Origin) : Prop :=
  ∃ e ∈ s, e.action = action ∧ e.origin = origin

/-- The summary mentions all actions of the routine itself. -/
def Records (g : CallGraph) (s : Summary) (id : RoutineId) : Prop :=
  ∀ action origin, g.Introduces id action origin → s.Mentions action origin

variable {g : CallGraph} {s t : Summary} {id : RoutineId}

theorem Mentions.mono {action : Action} {origin : Origin} (h : s.Mentions action origin)
    (hsub : s ⊆ t) : t.Mentions action origin := by
  obtain ⟨e, he, haction, horigin⟩ := h
  exact ⟨e, hsub he, haction, horigin⟩

theorem Mentions.splice {action : Action} {origin : Origin} (h : s.Mentions action origin)
    (callHidden : Bool) : (s.splice callHidden).Mentions action origin := by
  obtain ⟨e, he, haction, horigin⟩ := h
  exact ⟨e.through callHidden, List.mem_map_of_mem he, haction, horigin⟩

theorem Records.mono (h : Records g s id) (hsub : s ⊆ t) : Records g t id :=
  fun action origin hi => (h action origin hi).mono hsub

theorem Records.splice (h : Records g s id) (callHidden : Bool) :
    Records g (s.splice callHidden) id :=
  fun action origin hi => (h action origin hi).splice callHidden

theorem subset_bounded (g : CallGraph) (id : RoutineId) (s : Summary) : s ⊆ bounded g id s :=
  fun _ he => mem_bounded.mpr (.inr he)

/-- With the effects of all its own sites, a routine is recorded in its summary. -/
theorem records_bounded {es : List Effect}
    (h : ∀ x ∈ g.sites id, ∀ action, x.kind = .direct action →
      Mentions es action (.site id x.index)) : Records g (bounded g id es) id := by
  intro action origin hi
  cases hi with
  | boundary hlabel =>
    rename_i label
    exact ⟨⟨.push label, false, .boundary id⟩, mem_bounded.mpr (.inl ⟨label, hlabel, rfl⟩), rfl, rfl⟩
  | site hx hk => exact (h _ hx _ hk).mono (subset_bounded g id es)

end Summary

namespace CallGraph
variable {g : CallGraph} {id : RoutineId} {e : Effect}

theorem introduces_of_mem_unroll {depth : Nat} (h : e ∈ g.unroll depth id) :
    ∃ q, g.Reaches id q ∧ g.Introduces q e.action e.origin := by
  induction depth generalizing id e with
  | zero => exact absurd h List.not_mem_nil
  | succ depth ih =>
    rcases mem_unroll_succ.mp h with ⟨label, hlabel, rfl⟩ | ⟨s, hs, he⟩
    · exact ⟨id, .refl, .boundary hlabel⟩
    · rcases Site.mem_inlined.mp he with ⟨action, hk, rfl⟩ | ⟨callee, hk, e', he', rfl⟩
      · exact ⟨id, .refl, .site hs hk⟩
      · obtain ⟨q, hq, hi⟩ := ih he'
        exact ⟨q, .head ⟨s, hs, hk⟩ hq, hi⟩

end CallGraph

namespace Nested
variable {g : CallGraph}

/-- A routine in progress is not started again, so its summary is not published before it ends. -/
theorem effects_marked (v : View) (id : RoutineId) (sites : List Site) {q : RoutineId}
    (hq : q ∈ v.marks) (hc : v.cache.get? q = none) :
    (effects g v id sites).2.get? q = none := by
  induction v, id, sites using effects_induction (g := g) with
  | nil v id => simpa using hc
  | direct v id s rest action hk ih =>
    rw [effects_direct g v id rest hk]
    exact ih hq hc
  | silent v id s rest hk ih =>
    rw [effects_silent g v id rest hk]
    exact ih hq hc
  | cached v id s rest callee summary hk hcallee ih =>
    rw [effects_cached g v id rest hk hcallee]
    exact ih hq hc
  | cut v id s rest callee hk hcallee hm ih =>
    rw [effects_cut g v id rest hk hcallee hm]
    exact ih hq hc
  | started v id s rest callee hk hcallee hm ihBody ihRest =>
    have hne : q ≠ callee := fun he => hm (he ▸ hq)
    have hbody := ihBody (View.mem_mark.mpr (.inr hq)) (by simpa using hc)
    rw [effects_started g v id rest hk hcallee hm]
    apply ihRest
    · rwa [start_marks hm]
    · rw [start_cache, FirstWrite.get?_insert, if_neg hne]
      exact hbody

/-- A routine that had no summary gets the one that is computed for it. -/
theorem start_summary {v : View} {id : RoutineId} (hc : v.cache.get? id = none) :
    (start g v id).1 = Summary.bounded g id (effects g (v.mark id) id (g.sites id)).1 := by
  have hbody := effects_marked (g := g) (v.mark id) id (g.sites id)
    (View.mem_mark.mpr (.inl rfl)) (by simpa using hc)
  simp [start, close_summary, hbody]

/-- The effects mention the actions of the sites, and record all routines that came into the cache. -/
structure Gathers (g : CallGraph) (id : RoutineId) (sites : List Site) (c c' : SummaryCache)
    (es : List Effect) : Prop where
  own : ∀ s ∈ sites, ∀ action, s.kind = .direct action →
    Summary.Mentions es action (.site id s.index)
  new : ∀ q, c'.contains q = true → c.contains q = true ∨ Summary.Records g es q

namespace Gathers
variable {id : RoutineId} {sites : List Site} {c c' : SummaryCache} {es es' : List Effect}

theorem mono (h : Gathers g id sites c c' es) (hsub : es ⊆ es') :
    Gathers g id sites c c' es' where
  own := fun s hs action hk => (h.own s hs action hk).mono hsub
  new := fun q hq => (h.new q hq).imp_right fun hr => hr.mono hsub

/-- A site without an action of its own needs no effect. -/
theorem pass {s : Site} (h : Gathers g id sites c c' es)
    (hs : ∀ action, s.kind ≠ .direct action) : Gathers g id (s :: sites) c c' es where
  own := List.forall_mem_cons.mpr ⟨fun action hk => absurd hk (hs action), h.own⟩
  new := h.new

/-- The summary of a routine that was started records it, and all that came into the cache on the way. -/
theorem bounded {v : View}
    (h : Gathers g id (g.sites id) v.cache (effects g (v.mark id) id (g.sites id)).2 es) {q : RoutineId}
    (hq : (start g v id).2.cache.contains q = true) :
    v.cache.contains q = true ∨ Summary.Records g (Summary.bounded g id es) q := by
  rcases contains_start.mp hq with rfl | hq
  · exact .inr (Summary.records_bounded h.own)
  · exact (h.new q hq).imp_right fun hr => hr.mono (Summary.subset_bounded g id es)

end Gathers

theorem effects_gathers (v : View) (id : RoutineId) (sites : List Site) :
    Gathers g id sites v.cache (effects g v id sites).2 (effects g v id sites).1 := by
  induction v, id, sites using effects_induction (g := g) with
  | nil v id =>
    rw [effects_nil]
    exact ⟨fun _ hs => absurd hs List.not_mem_nil, fun q hq => .inl hq⟩
  | direct v id s rest action hk ih =>
    have hrest := ih.mono (List.subset_cons_self (s.effect id action) (effects g v id rest).1)
    rw [effects_direct g v id rest hk]
    refine ⟨List.forall_mem_cons.mpr ⟨fun other hother => ?_, hrest.own⟩, hrest.new⟩
    obtain rfl : action = other := by simpa [hk] using hother
    exact ⟨s.effect id action, .head _, rfl, rfl⟩
  | silent v id s rest hk ih =>
    rw [effects_silent g v id rest hk]
    apply ih.pass
    rcases hk with ⟨op, hk⟩ | hk <;> simp [hk]
  | cached v id s rest callee summary hk hc ih =>
    rw [effects_cached g v id rest hk hc]
    apply Gathers.pass _ (by simp [hk])
    exact ih.mono (List.subset_append_right (summary.splice s.hidden) (effects g v id rest).1)
  | cut v id s rest callee hk hc hm ih =>
    rw [effects_cut g v id rest hk hc hm]
    exact ih.pass (by simp [hk])
  | started v id s rest callee hk hc hm ihBody ihRest =>
    rw [View.mark_cache] at ihBody
    have hfirst := List.subset_append_left ((start g v callee).1.splice s.hidden)
      (effects g (start g v callee).2 id rest).1
    have hrest := ihRest.mono (List.subset_append_right ((start g v callee).1.splice s.hidden)
      (effects g (start g v callee).2 id rest).1)
    rw [effects_started g v id rest hk hc hm]
    apply Gathers.pass _ (by simp [hk])
    refine ⟨hrest.own, fun q hq => ?_⟩
    -- a routine is new in the cache because of the callee or because of the sites after it
    rcases hrest.new q hq with hthere | hr
    · rcases ihBody.bounded hthere with hold | hr
      · exact .inl hold
      · rw [← start_summary hc] at hr
        exact .inr ((hr.splice s.hidden).mono hfirst)
    · exact .inr hr

end Nested

/-- Once the root of an empty cache has ended, all routines that it reaches have a summary. -/
theorem contains_of_reaches {g : CallGraph} {root q : RoutineId} (h : g.Reaches root q) :
    (Nested.start g {} root).2.cache.contains q = true := by
  rw [← View.leads_empty] at h
  exact Nested.contains_start_iff.mpr (.inr h)

theorem records_of_reaches {g : CallGraph} {root q : RoutineId} (h : g.Reaches root q) :
    Summary.Records g (Nested.start g {} root).1 q := by
  have hgathers := Nested.effects_gathers (g := g) (View.mark {} root) root (g.sites root)
  rw [View.mark_cache] at hgathers
  rw [Nested.start_summary rfl]
  rcases hgathers.bounded (contains_of_reaches h) with hold | hr
  · exact absurd hold Bool.false_ne_true
  · exact hr

/-- On any graph, the summary that is computed for a routine on its own mentions the actions of all routines that it
reaches, and no others: for every place where such a routine acts, and for its scope if it has one, there is an effect
with this action and origin, and every effect comes from one of these. -/
theorem summarizeAlone_mentions_iff (g : CallGraph) (root : RoutineId) :
    ∃ s, summarizeAlone g false root = .ok s ∧
      ∀ action origin, s.Mentions action origin ↔
        ∃ q, g.Reaches root q ∧ g.Introduces q action origin := by
  have hnone : ({} : View).cache.get? root = none := rfl
  refine ⟨(Nested.start g {} root).1, by simp [summarizeAlone, summarize_of_uncached hnone], ?_⟩
  intro action origin
  constructor
  · rintro ⟨e, he, rfl, rfl⟩
    obtain ⟨s, u, hsum, _, hwithin⟩ :=
      summarize_shallow (g := g) (v := {}) root (SummaryCache.shallow_empty g)
    obtain ⟨rfl, _⟩ : (Nested.start g {} root).1 = s ∧ (Nested.start g {} root).2 = u := by
      simpa [summarize_of_uncached hnone] using hsum
    exact CallGraph.introduces_of_mem_unroll (hwithin.subset he)
  · rintro ⟨q, hq, hi⟩
    exact records_of_reaches hq action origin hi

end AmbientScope
