import AmbientScope.Proofs.Permanence

/-!
# What a summarization visits

The routines that get a summary on the way to that of the root are those that a chain of calls reaches from it without
meeting a routine that had a summary or a mark before. Within a cycle some of them are started from routines that are
still in progress, and their own calls are then cut. But a call is only ever cut at a mark: so whatever has come into
the cache has all its callees there, apart from those that are marked, and once the root has ended the marks are the
old ones.
-/

set_option autoImplicit false

namespace AmbientScope

namespace View

/-- The first routine calls the second, which has neither a summary nor a mark. -/
def Enters (g : CallGraph) (v : View) (caller callee : RoutineId) : Prop :=
  g.Calls caller callee ∧ v.state callee = .unvisited

/-- A chain of such calls, possibly empty. -/
def Leads (g : CallGraph) (v : View) : RoutineId → RoutineId → Prop :=
  Relation.ReflTransGen (v.Enters g)

/-- The same calls, and those of the root, which is started in any case. -/
def Opens (g : CallGraph) (v : View) (root caller callee : RoutineId) : Prop :=
  g.Calls caller callee ∧ (callee = root ∨ v.state callee = .unvisited)

variable {g : CallGraph} {v v' : View} {id q root : RoutineId}

theorem Leads.mono (h : v'.Leads g id q)
    (hstate : ∀ p, v'.state p = .unvisited → v.state p = .unvisited) : v.Leads g id q :=
  Relation.ReflTransGen.mono (fun _ callee hin => ⟨hin.1, hstate callee hin.2⟩) id q h

/-- Where a chain comes back to the root, what is before can be left out. -/
theorem opens_iff_leads : Relation.ReflTransGen (v.Opens g root) root q ↔ v.Leads g root q := by
  constructor
  · intro h
    induction h with
    | refl => exact .refl
    | tail _ hstep ih =>
      obtain ⟨hcall, rfl | hnew⟩ := hstep
      · exact .refl
      · exact ih.tail ⟨hcall, hnew⟩
  · exact Relation.ReflTransGen.mono (fun _ _ hin => ⟨hin.1, .inr hin.2⟩) root q

/-- All chains are open to a worker that has seen nothing. -/
theorem leads_empty : ({} : View).Leads g = g.Reaches := by
  have hopen : ({} : View).Enters g = g.Calls := by
    funext caller callee
    simp [Enters, state_empty]
  rw [Leads, hopen, CallGraph.Reaches]

/-- The chain ends where it starts, or at a routine that was new. -/
theorem Leads.eq_or_unvisited (h : v.Leads g id q) : q = id ∨ v.state q = .unvisited := by
  cases h with
  | refl => exact .inl rfl
  | tail _ hstep => exact .inr hstep.2

theorem state_of_grows (hcache : v.cache.Grows v'.cache) (hmarks : v'.marks = v.marks)
    (h : v'.state q = .unvisited) : v.state q = .unvisited := by
  rw [state_eq_unvisited_iff, SummaryCache.get?_eq_none_iff] at h ⊢
  exact ⟨fun hold => h.1 (hcache q hold), hmarks ▸ h.2⟩

end View

namespace Nested
variable {g : CallGraph}

theorem contains_start {v : View} {id q : RoutineId} :
    (start g v id).2.cache.contains q = true ↔
      q = id ∨ FirstWrite.contains (effects g (v.mark id) id (g.sites id)).2 q = true := by
  rw [start_cache]
  exact SummaryCache.contains_insert _ id q _

theorem grows_start (v : View) (id : RoutineId) : v.cache.Grows (start g v id).2.cache := by
  have hbody := effects_grows (g := g) (v.mark id) id (g.sites id)
  rw [View.mark_cache] at hbody
  exact hbody.trans (start_grows v id)

/-- What has come into the cache while sites were scanned. -/
structure Visits (g : CallGraph) (v : View) (sites : List Site) (c : SummaryCache) : Prop where
  /-- A callee of the sites has a summary now, unless the call was cut. -/
  callees : ∀ s ∈ sites, ∀ callee, s.kind = .call callee →
    c.contains callee = true ∨ callee ∈ v.marks
  closed : ∀ q, c.contains q = true → v.cache.contains q = true ∨
    ∀ callee, g.Calls q callee → c.contains callee = true ∨ callee ∈ v.marks
  reached : ∀ q, c.contains q = true → v.cache.contains q = true ∨
    ∃ s ∈ sites, ∃ callee, s.kind = .call callee ∧ v.state callee = .unvisited ∧
      v.Leads g callee q

namespace Visits
variable {v : View} {s : Site} {sites : List Site} {c : SummaryCache} {id : RoutineId}

/-- A site in front that starts no routine. -/
theorem cons (h : Visits g v sites c)
    (hs : ∀ callee, s.kind = .call callee → c.contains callee = true ∨ callee ∈ v.marks) :
    Visits g v (s :: sites) c where
  callees := List.forall_mem_cons.mpr ⟨hs, h.callees⟩
  closed := h.closed
  reached := fun q hq => (h.reached q hq).imp_right fun ⟨x, hx, hchain⟩ => ⟨x, .tail _ hx, hchain⟩

section Body
variable (h : Visits g (v.mark id) (g.sites id) (effects g (v.mark id) id (g.sites id)).2)
include h

/-- A routine that has ended stands in for its own callees: it has lost its mark, but it has a summary. -/
theorem closed_start {q : RoutineId} (hq : (start g v id).2.cache.contains q = true) :
    (v.cache.contains q = true ∧ q ≠ id) ∨ ∀ callee, g.Calls q callee →
      (start g v id).2.cache.contains callee = true ∨ callee ∈ v.marks := by
  have hended {p : RoutineId}
      (hp : FirstWrite.contains (effects g (v.mark id) id (g.sites id)).2 p = true ∨
        p ∈ (v.mark id).marks) :
      (start g v id).2.cache.contains p = true ∨ p ∈ v.marks := by
    rcases hp with hp | hp
    · exact .inl (contains_start.mpr (.inr hp))
    · exact (View.mem_mark.mp hp).imp_left fun he => contains_start.mpr (.inl he)
  by_cases hid : q = id
  · subst hid
    exact .inr fun callee ⟨s, hs, hk⟩ => hended (h.callees s hs callee hk)
  · have hbody := (contains_start.mp hq).resolve_left hid
    rcases h.closed q hbody with hold | hcallees
    · rw [View.mark_cache] at hold
      exact .inl ⟨hold, hid⟩
    · exact .inr fun callee hcall => hended (hcallees callee hcall)

theorem reached_start {q : RoutineId} (hq : (start g v id).2.cache.contains q = true) :
    v.cache.contains q = true ∨ v.Leads g id q := by
  rcases contains_start.mp hq with rfl | hq
  · exact .inr .refl
  rcases h.reached q hq with hold | ⟨s, hs, callee, hk, hnew, hchain⟩
  · exact .inl (by rwa [View.mark_cache] at hold)
  · have hfirst : v.Enters g id callee := ⟨⟨s, hs, hk⟩, View.state_of_mark hnew⟩
    exact .inr (.head hfirst (hchain.mono fun _ => View.state_of_mark))

end Body

/-- A site in front that starts its callee: its part of the cache is what the callee leaves. -/
theorem started {callee : RoutineId} (hk : s.kind = .call callee)
    (hnew : v.state callee = .unvisited)
    (hbody : Visits g (v.mark callee) (g.sites callee)
      (effects g (v.mark callee) callee (g.sites callee)).2)
    (hrest : Visits g (start g v callee).2 sites c)
    (hgrow : (start g v callee).2.cache.Grows c) : Visits g v (s :: sites) c := by
  have hmarks : (start g v callee).2.marks = v.marks :=
    start_marks (View.state_eq_unvisited_iff.mp hnew).2
  have hstate (p : RoutineId) := View.state_of_grows (q := p) (grows_start (g := g) v callee) hmarks
  refine ⟨List.forall_mem_cons.mpr ⟨fun other hother => ?_, fun x hx other hother => ?_⟩, ?_, ?_⟩
  · obtain rfl : callee = other := by simpa [hk] using hother
    exact .inl (hgrow callee (contains_start.mpr (.inl rfl)))
  · exact hmarks ▸ hrest.callees x hx other hother
  · intro q hq
    rcases hrest.closed q hq with hq | hcallees
    · rcases hbody.closed_start hq with hold | hcallees
      · exact .inl hold.1
      · exact .inr fun other hcall => (hcallees other hcall).imp_left (hgrow other)
    · exact .inr fun other hcall => hmarks ▸ hcallees other hcall
  · intro q hq
    rcases hrest.reached q hq with hq | ⟨x, hx, other, hother, hfresh, hchain⟩
    · exact (hbody.reached_start hq).imp_right fun hchain => ⟨s, .head _, callee, hk, hnew, hchain⟩
    · exact .inr ⟨x, .tail _ hx, other, hother, hstate other hfresh, hchain.mono hstate⟩

end Visits

theorem effects_visits (v : View) (id : RoutineId) (sites : List Site) :
    Visits g v sites (effects g v id sites).2 := by
  induction v, id, sites using effects_induction (g := g) with
  | nil v id =>
    rw [effects_nil]
    exact ⟨fun _ hs => absurd hs List.not_mem_nil, fun _ hq => .inl hq, fun _ hq => .inl hq⟩
  | direct v id s rest action hk ih =>
    rw [effects_direct g v id rest hk]
    exact ih.cons fun callee hcall => by simp [hk] at hcall
  | silent v id s rest hk ih =>
    rw [effects_silent g v id rest hk]
    refine ih.cons fun callee hcall => ?_
    rcases hk with ⟨op, hk⟩ | hk <;> simp [hk] at hcall
  | cached v id s rest callee summary hk hc ih =>
    have hthere := effects_grows (g := g) v id rest callee (SummaryCache.contains_of_get? hc)
    rw [effects_cached g v id rest hk hc]
    exact ih.cons fun q hcall => .inl (SummaryCache.contains_callee hk hthere q hcall)
  | cut v id s rest callee hk hc hm ih =>
    rw [effects_cut g v id rest hk hc hm]
    refine ih.cons fun q hcall => ?_
    obtain rfl : callee = q := by simpa [hk] using hcall
    exact .inr hm
  | started v id s rest callee hk hc hm ihBody ihRest =>
    have hnew := View.state_eq_unvisited_iff.mpr ⟨hc, hm⟩
    have hgrow := effects_grows (g := g) (start g v callee).2 id rest
    rw [effects_started g v id rest hk hc hm]
    exact Visits.started hk hnew ihBody ihRest hgrow

/-- What is in the cache once a routine has ended. -/
theorem contains_start_iff {v : View} {root q : RoutineId} :
    (start g v root).2.cache.contains q = true ↔ v.cache.contains q = true ∨ v.Leads g root q := by
  have hbody := effects_visits (g := g) (v.mark root) root (g.sites root)
  constructor
  · exact hbody.reached_start
  · rintro (hold | hchain)
    · exact grows_start v root q hold
    · induction hchain with
      | refl => exact contains_start.mpr (.inl rfl)
      | tail hchain hstep ih =>
        obtain ⟨hcall, hnew⟩ := hstep
        have hunmarked := (View.state_eq_unvisited_iff.mp hnew).2
        rcases hbody.closed_start ih with ⟨hold, hne⟩ | hcallees
        · -- only the root may have been visited before
          have hearlier := (View.Leads.eq_or_unvisited hchain).resolve_left hne
          simp [View.state, hold] at hearlier
        · exact (hcallees _ hcall).resolve_right hunmarked

/-- The root is no longer in progress, whether or not it was before. -/
theorem start_marks_eq (v : View) (id : RoutineId) :
    (start g v id).2.marks = v.marks.filter (· ≠ id) := by
  have hmarks : (start g v id).2.marks = ((v.mark id).unmark id).marks := close_marks ..
  rw [hmarks]
  by_cases hm : id ∈ v.marks
  · simp only [View.mark, if_pos hm, View.unmark]
  · simp [View.mark_of_not_mem hm, View.unmark]

end Nested

/-- On any graph, from any cache and any marks. The summary of a routine that has none is computed, and then the cache
has gained the routines that a chain of calls leads to from this one, where all others on the chain had neither a
summary nor a mark, and no more. What was cached is as before, and so are the marks except for one on the routine
itself. Where nothing was cached or marked, all that the routine reaches is done and the rest is unvisited. -/
theorem summarize_visits (g : CallGraph) (root : RoutineId) :
    (∀ v : View, v.cache.get? root = none →
      ∃ s u, summarize g false v root = (.ok s, u) ∧
        (∀ q, (v.cache.contains q = false ∧ u.cache.contains q = true) ↔
          Relation.ReflTransGen (v.Opens g root) root q) ∧
        (∀ q kept, v.cache.get? q = some kept → u.cache.get? q = some kept) ∧
        u.marks = v.marks.filter (· ≠ root)) ∧
    ∃ s u, summarize g false {} root = (.ok s, u) ∧
      ∀ q, (g.Reaches root q → u.state q = .done) ∧ (¬ g.Reaches root q → u.state q = .unvisited) := by
  constructor
  · intro v hnone
    have hkeeps := summarize_keeps g v root
    rw [summarize_of_uncached hnone] at hkeeps ⊢
    refine ⟨_, _, rfl, fun q => ?_, hkeeps, Nested.start_marks_eq v root⟩
    rw [View.opens_iff_leads, Nested.contains_start_iff]
    constructor
    · rintro ⟨hold, hthere | hchain⟩
      · simp [hold] at hthere
      · exact hchain
    · intro hchain
      refine ⟨?_, .inr hchain⟩
      rcases hchain.eq_or_unvisited with rfl | hnew
      · simp [FirstWrite.contains, hnone]
      · simp [FirstWrite.contains, (View.state_eq_unvisited_iff.mp hnew).1]
  · rw [summarize_of_uncached rfl]
    refine ⟨_, _, rfl, fun q => ?_⟩
    have hcache : (Nested.start g {} root).2.cache.contains q = true ↔ g.Reaches root q := by
      rw [Nested.contains_start_iff, View.leads_empty]
      exact or_iff_right Bool.false_ne_true
    have hmarks : (Nested.start g {} root).2.marks = [] := Nested.start_marks_eq {} root
    constructor
    · intro hq
      simp [View.state, hcache.mpr hq]
    · intro hq
      simp [View.state, Bool.eq_false_iff.mpr (mt hcache.mp hq), hmarks]

/-- The first routine calls the next three, and the second one calls it back. -/
def partlySeen : CallGraph := CallGraph.ofSites
  [(none, [(.call 1, false), (.call 2, false), (.call 3, false)]),
   (none, [(.call 0, false), (.call 4, false)]),
   (none, [(.call 5, false)]),
   (none, [(.call 5, false)]),
   (none, []),
   (none, [])]

/-- The fourth routine has a summary; the third one and the root itself are marked. What lies behind them is not
visited. -/
theorem summarize_visits_partly_seen :
    let v : View := ⟨FirstWrite.empty.insert 3 [], [2, 0]⟩
    v.cache.get? 0 = none ∧ ∃ s u, summarize partlySeen false v 0 = (.ok s, u) ∧
      (∀ q, (v.cache.contains q = false ∧ u.cache.contains q = true) ↔ q ∈ [0, 1, 4]) ∧
      u.marks = [2] := by
  intro v
  have hnone : v.cache.get? 0 = none := by decide
  obtain ⟨s, u, hsum, hvisits, _, hmarks⟩ := (summarize_visits partlySeen 0).1 v hnone
  refine ⟨hnone, s, u, hsum, fun q => (hvisits q).trans ⟨fun hchain => ?_, fun hq => ?_⟩, hmarks⟩
  · -- a call from one of the three to a routine that is not among them meets the summary or the mark
    have hwithin : ∀ p ∈ [0, 1, 4], ∀ site ∈ partlySeen.sites p,
        site.kind = .call 2 ∨ site.kind = .call 3 ∨ site.kind ∈ [0, 1, 4].map SiteClass.call := by
      decide
    induction hchain with
    | refl => decide
    | tail _ hstep ih =>
      obtain ⟨⟨site, hsite, hk⟩, hopen⟩ := hstep
      have hsites := hwithin _ ih site hsite
      rw [hk] at hsites
      rcases hsites with h | h | h
      · obtain rfl := SiteClass.call.inj h
        exact absurd hopen (by decide)
      · obtain rfl := SiteClass.call.inj h
        exact absurd hopen (by decide)
      · simpa using h
  · have hfirst : v.Opens partlySeen 0 0 1 :=
      ⟨⟨⟨0, .call 1, false, {}, ""⟩, by decide, rfl⟩, by decide⟩
    have hsecond : v.Opens partlySeen 0 1 4 :=
      ⟨⟨⟨1, .call 4, false, {}, ""⟩, by decide, rfl⟩, by decide⟩
    have hchain := Relation.ReflTransGen.single hfirst
    rcases List.mem_cons.mp hq with rfl | hq
    · exact .refl
    rcases List.mem_cons.mp hq with rfl | hq
    · exact hchain
    · obtain rfl := List.mem_singleton.mp hq
      exact hchain.tail hsecond

end AmbientScope
