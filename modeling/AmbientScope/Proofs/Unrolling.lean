import AmbientScope.Proofs.SessionExactness
import AmbientScope.Proofs.SharedCache

/-!
# Recursion only leaves effects out

A summary never has more than the unrolling of its routine to as many calls as there are routines. Where recursion is
cut, and where a truncated summary is taken from the cache, effects are missing, but none is invented, moved or
uncovered. The depth that a summary needs is at most the number of routines that had a summary when it was
published: all its callees got theirs before.
-/

set_option autoImplicit false

namespace AmbientScope

namespace Summary
variable {s t : Summary}

theorem splice_sublist (callHidden : Bool) (h : s.Sublist t) :
    (s.splice callHidden).Sublist (t.splice callHidden) :=
  h.map _

theorem bounded_sublist (g : CallGraph) (id : RoutineId) (h : s.Sublist t) :
    (bounded g id s).Sublist (bounded g id t) := by
  unfold bounded
  split
  · exact h.cons_cons _
  · exact h

theorem mem_bounded {g : CallGraph} {id : RoutineId} {e : Effect} :
    e ∈ bounded g id s ↔
      (∃ label, g.boundary? id = some label ∧ e = ⟨.push label, false, .boundary id⟩) ∨ e ∈ s := by
  unfold bounded
  split
  · rename_i label hlabel
    simp [hlabel]
  · rename_i hnone
    simp [hnone]

end Summary

namespace Site
variable {s : Site} {routine : RoutineId} {f f' : RoutineId → Summary}

theorem inlined_sublist (h : ∀ callee, (f callee).Sublist (f' callee)) :
    (s.inlined routine f).Sublist (s.inlined routine f') := by
  unfold inlined
  split
  · exact .refl _
  · exact Summary.splice_sublist _ (h _)
  · exact .refl _
  · exact .refl _

theorem mem_inlined {e : Effect} :
    e ∈ s.inlined routine f ↔
      (∃ action, s.kind = .direct action ∧ e = s.effect routine action) ∨
      ∃ callee, s.kind = .call callee ∧ ∃ e' ∈ f callee, e = e'.through s.hidden := by
  unfold inlined
  split
  · rename_i action hk
    simp [hk]
  · rename_i callee hk
    simp [hk, Summary.splice, eq_comm]
  · rename_i op hk
    simp [hk]
  · rename_i hk
    simp [hk]

end Site

namespace CallGraph
variable {g : CallGraph} {id : RoutineId} {e : Effect}

theorem unroll_sublist_succ (depth : Nat) (id : RoutineId) :
    (g.unroll depth id).Sublist (g.unroll (depth + 1) id) := by
  induction depth generalizing id with
  | zero => exact List.nil_sublist _
  | succ depth ih =>
    apply Summary.bounded_sublist
    apply List.Sublist.flatMap_right
    intro s _
    exact Site.inlined_sublist ih

theorem unroll_sublist {depth depth' : Nat} (h : depth ≤ depth') (id : RoutineId) :
    (g.unroll depth id).Sublist (g.unroll depth' id) := by
  induction h with
  | refl => exact .refl _
  | step _ ih => exact ih.trans (unroll_sublist_succ _ id)

/-- The effect comes from a site, or from the scope, of a routine that is reached without passing a hidden site. -/
inductive Exposed (g : CallGraph) : RoutineId → Effect → Prop where
  | boundary {id : RoutineId} {label : String} :
      g.boundary? id = some label → Exposed g id ⟨.push label, false, .boundary id⟩
  | site {id : RoutineId} {s : Site} {action : Action} :
      s ∈ g.sites id → s.kind = .direct action → s.hidden = false →
      Exposed g id (s.effect id action)
  | call {id callee : RoutineId} {s : Site} {e : Effect} :
      s ∈ g.sites id → s.kind = .call callee → s.hidden = false → Exposed g callee e →
      Exposed g id e

theorem mem_unroll_succ {depth : Nat} :
    e ∈ g.unroll (depth + 1) id ↔
      (∃ label, g.boundary? id = some label ∧ e = ⟨.push label, false, .boundary id⟩) ∨
      ∃ s ∈ g.sites id, e ∈ s.inlined id (g.unroll depth) := by
  rw [unroll, Summary.mem_bounded, List.mem_flatMap]

theorem exposed_of_mem_unroll {depth : Nat} (h : e ∈ g.unroll depth id) (hh : e.hidden = false) :
    g.Exposed id e := by
  induction depth generalizing id e with
  | zero => exact absurd h List.not_mem_nil
  | succ depth ih =>
    rcases mem_unroll_succ.mp h with ⟨label, hlabel, rfl⟩ | ⟨s, hs, he⟩
    · exact .boundary hlabel
    · rcases Site.mem_inlined.mp he with ⟨action, hk, rfl⟩ | ⟨callee, hk, e', he', rfl⟩
      · exact .site hs hk hh
      · obtain ⟨he, hs'⟩ : e'.hidden = false ∧ s.hidden = false := by
          simpa [Effect.through] using hh
        rw [hs', Effect.through_false]
        exact .call hs hk hs' (ih he' he)

end CallGraph

namespace SummaryCache
variable {g : CallGraph} {c c' : SummaryCache}

/-- The routines of the graph that have a summary. -/
def filled (g : CallGraph) (c : SummaryCache) : Finset RoutineId :=
  (Finset.range g.size).filter fun id => c.contains id = true

/-- Every summary is within an unrolling no deeper than there are summaries. -/
def Shallow (g : CallGraph) (c : SummaryCache) : Prop :=
  ∀ id s, c.get? id = some s → s.Sublist (g.unroll (c.filled g).card id)

theorem card_filled_le (g : CallGraph) (c : SummaryCache) : (c.filled g).card ≤ g.size := by
  have hle := Finset.card_filter_le (Finset.range g.size) fun id => c.contains id = true
  rwa [Finset.card_range] at hle

theorem Grows.trans {c'' : SummaryCache} (h : c.Grows c') (h' : c'.Grows c'') : c.Grows c'' :=
  fun id hid => h' id (h id hid)

theorem Grows.card_filled_le (h : c.Grows c') : (c.filled g).card ≤ (c'.filled g).card := by
  apply Finset.card_le_card
  intro id hid
  obtain ⟨hlt, hc⟩ := Finset.mem_filter.mp hid
  exact Finset.mem_filter.mpr ⟨hlt, h id hc⟩

theorem card_filled_insert {id : RoutineId} (hid : id < g.size) (h : c.get? id = none)
    (s : Summary) : (c.filled g).card < (filled g (c.insert id s)).card := by
  have hnew : id ∈ filled g (c.insert id s) :=
    Finset.mem_filter.mpr ⟨Finset.mem_range.mpr hid, (contains_insert c id id s).mpr (.inl rfl)⟩
  have hold : id ∉ filled g c := fun hm => get?_eq_none_iff.mp h (Finset.mem_filter.mp hm).2
  apply Finset.card_lt_card
  refine Finset.ssubset_iff_of_subset ?_ |>.mpr ⟨id, hnew, hold⟩
  intro q hq
  obtain ⟨hlt, hc⟩ := Finset.mem_filter.mp hq
  exact Finset.mem_filter.mpr ⟨hlt, grows_insert c id s q hc⟩

theorem shallow_empty (g : CallGraph) : Shallow g FirstWrite.empty := by
  intro id s h
  exact absurd h (by simp)

/-- A routine whose callees are within an unrolling is within the one that is a call deeper. -/
theorem Shallow.insert (h : c.Shallow g) {id : RoutineId} {s : Summary}
    (hs : s.Sublist (g.unroll ((c.filled g).card + 1) id)) : Shallow g (c.insert id s) := by
  cases hc : c.get? id with
  | some kept => rwa [FirstWrite.insert_of_bound hc]
  | none =>
    have hgrow : (c.filled g).card ≤ (filled g (c.insert id s)).card :=
      (grows_insert c id s).card_filled_le
    intro q t ht
    rw [FirstWrite.get?_insert, hc] at ht
    split at ht
    · rename_i hq
      obtain rfl : s = t := by simpa using ht
      subst hq
      rcases Nat.lt_or_ge q g.size with hlt | hge
      · exact hs.trans (CallGraph.unroll_sublist (card_filled_insert hlt hc s) q)
      · -- a routine outside the graph has no effects at any depth
        rwa [CallGraph.unroll_of_size_le hge] at hs ⊢
    · exact (h q t ht).trans (CallGraph.unroll_sublist hgrow q)

end SummaryCache

namespace Nested
variable {g : CallGraph}

theorem start_grows (v : View) (id : RoutineId) :
    SummaryCache.Grows (effects g (v.mark id) id (g.sites id)).2 (start g v id).2.cache := by
  rw [start_cache]
  exact SummaryCache.grows_insert _ id _

/-- Scanning only adds to the cache. -/
theorem effects_grows (v : View) (id : RoutineId) (sites : List Site) :
    v.cache.Grows (effects g v id sites).2 := by
  induction v, id, sites using effects_induction (g := g) with
  | nil v id =>
    rw [effects_nil]
    exact .refl _
  | direct v id s rest action hk ih => rwa [effects_direct g v id rest hk]
  | silent v id s rest hk ih => rwa [effects_silent g v id rest hk]
  | cached v id s rest callee summary hk hc ih => rwa [effects_cached g v id rest hk hc]
  | cut v id s rest callee hk hc hm ih => rwa [effects_cut g v id rest hk hc hm]
  | started v id s rest callee hk hc hm ihBody ihRest =>
    rw [effects_started g v id rest hk hc hm]
    rw [View.mark_cache] at ihBody
    exact (ihBody.trans (start_grows v callee)).trans ihRest

theorem close_shallow {v : View} {id : RoutineId} {es : List Effect} (hcache : v.cache.Shallow g)
    (hes : es.Sublist
      ((g.sites id).flatMap fun s => s.inlined id (g.unroll (v.cache.filled g).card))) :
    (close g v id es).2.cache.Shallow g ∧
      (close g v id es).1.Sublist (g.unroll ((close g v id es).2.cache.filled g).card id) := by
  have hbounded := Summary.bounded_sublist g id hes
  have hafter : (close g v id es).2.cache.Shallow g := by
    rw [close_cache]
    exact hcache.insert hbounded
  exact ⟨hafter, hafter id _ (get?_close g v id es)⟩

/-- What is scanned stays within the sites with their callees unrolled, whatever is marked. -/
theorem effects_shallow (v : View) (id : RoutineId) (sites : List Site)
    (hcache : v.cache.Shallow g) :
    (effects g v id sites).2.Shallow g ∧
      (effects g v id sites).1.Sublist (sites.flatMap fun s =>
        s.inlined id (g.unroll ((effects g v id sites).2.filled g).card)) := by
  induction v, id, sites using effects_induction (g := g) with
  | nil v id => simpa using hcache
  | direct v id s rest action hk ih =>
    obtain ⟨hafter, hes⟩ := ih hcache
    rw [effects_direct g v id rest hk]
    refine ⟨hafter, ?_⟩
    simpa [Site.inlined, hk] using hes.cons_cons (s.effect id action)
  | silent v id s rest hk ih =>
    obtain ⟨hafter, hes⟩ := ih hcache
    rw [effects_silent g v id rest hk]
    exact ⟨hafter, hes.trans (List.sublist_append_right _ _)⟩
  | cached v id s rest callee summary hk hc ih =>
    obtain ⟨hafter, hes⟩ := ih hcache
    have hgrow := (effects_grows (g := g) v id rest).card_filled_le (g := g)
    rw [effects_cached g v id rest hk hc]
    refine ⟨hafter, ?_⟩
    have hsummary := (hcache callee summary hc).trans (CallGraph.unroll_sublist hgrow callee)
    have hspliced := Summary.splice_sublist s.hidden hsummary
    simpa [Site.inlined, hk] using hspliced.append hes
  | cut v id s rest callee hk hc hm ih =>
    obtain ⟨hafter, hes⟩ := ih hcache
    rw [effects_cut g v id rest hk hc hm]
    exact ⟨hafter, hes.trans (List.sublist_append_right _ _)⟩
  | started v id s rest callee hk hc hm ihBody ihRest =>
    obtain ⟨hbody, hbodyEffects⟩ := ihBody (by simpa using hcache)
    obtain ⟨hdone, hcallee⟩ :=
      close_shallow (v := { v.mark callee with cache := _ }) hbody hbodyEffects
    obtain ⟨hafter, hes⟩ := ihRest hdone
    have hgrow := (effects_grows (g := g) (start g v callee).2 id rest).card_filled_le (g := g)
    rw [effects_started g v id rest hk hc hm]
    refine ⟨hafter, ?_⟩
    have hsummary := hcallee.trans (CallGraph.unroll_sublist hgrow callee)
    have hspliced := Summary.splice_sublist s.hidden hsummary
    simpa [Site.inlined, hk, start] using hspliced.append hes

end Nested

theorem summarize_shallow {g : CallGraph} {v : View} (id : RoutineId)
    (hcache : v.cache.Shallow g) :
    ∃ s u, summarize g false v id = (.ok s, u) ∧ u.cache.Shallow g ∧
      s.Sublist (g.unroll (u.cache.filled g).card id) := by
  cases hc : v.cache.get? id with
  | some s => exact ⟨s, v, by simp [summarize, hc], hcache, hcache id s hc⟩
  | none =>
    obtain ⟨hbody, hes⟩ :=
      Nested.effects_shallow (v.mark id) id (g.sites id) (by simpa using hcache)
    obtain ⟨hafter, hsummary⟩ :=
      Nested.close_shallow (v := { v.mark id with cache := _ }) hbody hes
    exact ⟨_, _, summarize_of_uncached hc, hafter, hsummary⟩

/-- Computing a summary keeps the property of the cache, whatever the worker has marked. -/
def SummaryCache.Kept (g : CallGraph) (P : SummaryCache → Prop) : Prop :=
  ∀ v id, P v.cache → P (summarize g false v id).2.cache

namespace SummaryCache
variable {g : CallGraph} {P : SummaryCache → Prop} (hP : Kept g P)
include hP

theorem Kept.contribution (id : RoutineId) (s : Site) {v : View} (h : P v.cache) :
    P (Detection.contribution g false v id s).2.cache := by
  unfold Detection.contribution
  split
  · exact h
  · rename_i callee _
    obtain ⟨summary, u, hsum⟩ := summarize_succeeds g v callee
    have hafter := hP v callee h
    rw [hsum] at hafter ⊢
    exact hafter
  · exact h
  · exact h

theorem Kept.contributions (id : RoutineId) (sites : List Site) {v : View} (h : P v.cache) :
    P (Detection.contributions g false v id sites).2.cache := by
  induction sites generalizing v with
  | nil => exact h
  | cons s rest ih =>
    obtain ⟨effects, u, hs⟩ := Detection.contribution_succeeds g v id s
    obtain ⟨all, w, hrest, _⟩ := Detection.contributions_succeed g u id rest
    have hu := hP.contribution id s h
    rw [hs] at hu
    have hw := ih hu
    rw [hrest] at hw
    simpa only [Detection.contributions, hs, hrest] using hw

theorem Kept.check (rules : Rules) (id : RoutineId) {v : View} (h : P v.cache) :
    P (check g rules false v id).2.cache := by
  cases hr : g.routine? id with
  | none => simpa [AmbientScope.check, hr] using h
  | some r =>
    obtain ⟨all, u, hall, _⟩ := Detection.contributions_succeed g v r.id r.sites
    have hu := hP.contributions r.id r.sites h
    rw [hall] at hu
    rwa [check_of_contributions hr hall]

end SummaryCache

namespace Session
variable {P : SummaryCache → Prop}

theorem perform_kept {s : Session} (hP : SummaryCache.Kept s.graph P) (h : P s.cache)
    {q : Request} (hq : q.publishes = false) : P (s.perform q).2.cache := by
  cases q with
  | summarize i id =>
    rw [perform_summarize, withView_cache]
    cases s.isCancelled i with
    | false => exact hP (s.view i) id h
    | true =>
      rw [summarize_cancelled_cache]
      exact h
  | check i id =>
    rw [perform_check, withView_cache]
    cases s.isCancelled i with
    | false => exact hP.check s.rules id h
    | true => exact h
  | publish id summary => simp [Request.publishes] at hq
  | _ => exact h

theorem performAll_kept {s : Session} {requests : List Request}
    (hP : SummaryCache.Kept s.graph P) (h : P s.cache)
    (hq : ∀ q ∈ requests, q.publishes = false) : P (s.performAll requests).2.cache := by
  induction requests generalizing s with
  | nil => exact h
  | cons q rest ih =>
    have hfirst := perform_kept hP h (hq q (.head _))
    have hnext : SummaryCache.Kept (s.perform q).2.graph P := by rwa [perform_graph]
    exact ih hnext hfirst fun q' hq' => hq q' (.tail _ hq')

theorem shallow_kept (g : CallGraph) : SummaryCache.Kept g (SummaryCache.Shallow g) := by
  intro v id h
  obtain ⟨s, u, hsum, hafter, _⟩ := summarize_shallow id h
  rwa [hsum]

theorem perform_summarize_shallow {s : Session} (h : s.cache.Shallow s.graph) {i : Nat}
    {id : RoutineId} {summary : Summary}
    (hs : (s.perform (.summarize i id)).1 = .summary summary) :
    ∃ depth, depth ≤ s.graph.size ∧ summary.Sublist (s.graph.unroll depth id) := by
  cases hc : s.isCancelled i with
  | false =>
    obtain ⟨t, u, hsum, _, ht⟩ := summarize_shallow (v := s.view i) id h
    obtain rfl : t = summary := by simpa [perform, hc, hsum] using hs
    exact ⟨_, SummaryCache.card_filled_le _ _, ht⟩
  | true =>
    cases hcached : s.cache.get? id with
    | none => simp [perform, summarize, view, hc, hcached] at hs
    | some t =>
      obtain rfl : t = summary := by simpa [perform, summarize, view, hcached] using hs
      exact ⟨_, SummaryCache.card_filled_le _ _, h id t hcached⟩

/-- In every session without publications, on any graph, a summary that is in the cache or that a worker is answered
with is what is left of the unrolling of its routine to as many calls as there are routines after leaving effects out;
those that are not hidden in it are reached without passing a hidden site. -/
theorem summaries_within_unrolling (g : CallGraph) (rules : Rules) (tokens : List Nat)
    (requests : List Request) (hrequests : ∀ q ∈ requests, q.publishes = false)
    (id : RoutineId) (summary : Summary)
    (hsummary : ((start g rules tokens).performAll requests).2.cache.get? id = some summary ∨
      ∃ i, (((start g rules tokens).performAll requests).2.perform (.summarize i id)).1 =
        .summary summary) :
    summary.Sublist (g.unroll g.size id) ∧
      ∀ e ∈ summary, e.hidden = false → g.Exposed id e := by
  have hgraph : ((start g rules tokens).performAll requests).2.graph = g :=
    performAll_graph (start g rules tokens) requests
  have hshallow : ((start g rules tokens).performAll requests).2.cache.Shallow g :=
    performAll_kept (shallow_kept g) (SummaryCache.shallow_empty g) hrequests
  have hwithin : summary.Sublist (g.unroll g.size id) := by
    rcases hsummary with hcached | ⟨i, hanswer⟩
    · exact (hshallow id summary hcached).trans
        (CallGraph.unroll_sublist (SummaryCache.card_filled_le _ _) id)
    · obtain ⟨depth, hdepth, hs⟩ := perform_summarize_shallow (by rwa [hgraph]) hanswer
      rw [hgraph] at hdepth hs
      exact hs.trans (CallGraph.unroll_sublist hdepth id)
  exact ⟨hwithin, fun e he => CallGraph.exposed_of_mem_unroll (hwithin.subset he)⟩

/-- Two routines that call each other, one of them hidden, and a third one that calls both. -/
def mutualCalls : CallGraph := CallGraph.ofSites
  [(none, [(.direct (.provide ⟨"A", none⟩), false), (.call 1, false)]),
   (some "Scope", [(.call 0, true), (.direct (.provide ⟨"B", none⟩), false)]),
   (none, [(.call 0, false), (.call 1, false)])]

/-- The check of the first routine meets the cycle at the second one, so the first one is cut short. -/
theorem summaries_within_unrolling_of_mutual :
    (∀ q ∈ [Request.check 0 0, .cancel 1, .summarize 1 2], q.publishes = false) ∧
    let s := ((start mutualCalls {} [0, 1]).performAll [.check 0 0, .cancel 1, .summarize 1 2]).2
    let summary : Summary :=
      [⟨.provide ⟨"A", none⟩, false, .site 0 0⟩, ⟨.push "Scope", false, .boundary 1⟩,
        ⟨.provide ⟨"A", none⟩, true, .site 0 0⟩, ⟨.provide ⟨"B", none⟩, false, .site 1 1⟩]
    (s.perform (.summarize 0 2)).1 = .summary summary ∧
      summary.Sublist (mutualCalls.unroll mutualCalls.size 2) ∧
      ∀ e ∈ summary, e.hidden = false → mutualCalls.Exposed 2 e := by
  have hrequests :
      ∀ q ∈ [Request.check 0 0, .cancel 1, .summarize 1 2], q.publishes = false := by decide
  refine ⟨hrequests, rfl, ?_⟩
  exact summaries_within_unrolling mutualCalls {} [0, 1] _ hrequests 2 _ (.inr ⟨0, rfl⟩)

end Session

end AmbientScope
