import AmbientScope.Proofs.OneJob
import AmbientScope.Proofs.Placements
import AmbientScope.Proofs.SortedReports
import AmbientScope.Proofs.Visits
import AmbientScope.Scenario.Basic

/-!
# What an analysis counts

The summaries that an analysis leaves in its cache are those of the routines that are called somewhere. Each check
asks for the summaries of the callees of its own sites, and all sites belong to a routine that is checked. Whatever
else comes into the cache on the way is reached by a chain of calls, so it is called as well. Where cycles are cut
makes no difference.
-/

set_option autoImplicit false

namespace AmbientScope

def Site.callee? (s : Site) : Option RoutineId :=
  match s.kind with
  | .call callee => some callee
  | _ => none

theorem Site.callee?_eq_some_iff {s : Site} {callee : RoutineId} :
    s.callee? = some callee ↔ s.kind = .call callee := by
  unfold callee?
  cases s.kind <;> simp

namespace CallGraph

/-- The routines that are called somewhere in the graph. -/
def callees (g : CallGraph) : List RoutineId :=
  ((g.routines.flatMap Routine.sites).filterMap Site.callee?).dedup

variable {g : CallGraph}

theorem mem_sites_iff {id : RoutineId} {s : Site} :
    s ∈ g.sites id ↔ ∃ r, g.routine? id = some r ∧ s ∈ r.sites := by
  unfold sites
  cases g.routine? id <;> simp

theorem mem_callees_iff {q : RoutineId} : q ∈ g.callees ↔ ∃ caller, g.Calls caller q := by
  simp only [callees, List.mem_dedup, List.mem_filterMap, List.mem_flatMap, Site.callee?_eq_some_iff]
  constructor
  · rintro ⟨s, ⟨r, hr, hs⟩, hk⟩
    obtain ⟨id, hid⟩ := List.getElem?_of_mem hr
    exact ⟨id, s, mem_sites_iff.mpr ⟨r, hid, hs⟩, hk⟩
  · rintro ⟨id, s, hs, hk⟩
    obtain ⟨r, hid, hs⟩ := mem_sites_iff.mp hs
    exact ⟨s, ⟨r, List.mem_of_getElem? hid, hs⟩, hk⟩

end CallGraph

namespace SummaryCache
variable {g : CallGraph} {c c' c'' : SummaryCache} {xs ys : List Site}

/-- What the cache gains when the summaries of the callees of sites are asked for. -/
structure Fills (g : CallGraph) (c : SummaryCache) (sites : List Site) (c' : SummaryCache) : Prop where
  grows : c.Grows c'
  callees : ∀ s ∈ sites, ∀ callee, s.kind = .call callee → c'.contains callee = true
  called : ∀ q, c'.contains q = true → c.contains q = true ∨ ∃ caller, g.Calls caller q

namespace Fills

/-- Sites that call nothing gain nothing. -/
theorem none (h : ∀ s ∈ xs, ∀ callee, s.kind ≠ .call callee) : Fills g c xs c where
  grows := .refl c
  callees := fun s hs callee hk => absurd hk (h s hs callee)
  called := fun _ hq => .inl hq

/-- The callee of one site. -/
theorem single {s : Site} {callee : RoutineId} (hk : s.kind = .call callee) (hgrows : c.Grows c')
    (hthere : c'.contains callee = true)
    (hcalled : ∀ q, c'.contains q = true → c.contains q = true ∨ ∃ caller, g.Calls caller q) :
    Fills g c [s] c' where
  grows := hgrows
  callees := by
    intro x hx q hq
    obtain rfl := List.mem_singleton.mp hx
    exact contains_callee hk hthere q hq
  called := hcalled

theorem append (h : Fills g c xs c') (h' : Fills g c' ys c'') : Fills g c (xs ++ ys) c'' where
  grows := h.grows.trans h'.grows
  callees := List.forall_mem_append.mpr
    ⟨fun s hs callee hk => h'.grows callee (h.callees s hs callee hk), h'.callees⟩
  called := by
    intro q hq
    rcases h'.called q hq with hq | hcall
    · exact h.called q hq
    · exact .inr hcall

end Fills

end SummaryCache

section Runs
variable (g : CallGraph) (v : View)

/-- A routine that some routine calls is summarized, if it has no summary yet. -/
theorem summarize_fills {id : RoutineId} {s : Site} {callee : RoutineId} (hs : s ∈ g.sites id)
    (hk : s.kind = .call callee) :
    SummaryCache.Fills g v.cache [s] (summarize g false v callee).2.cache := by
  cases hc : v.cache.get? callee with
  | some summary =>
    rw [summarize_of_cached hc]
    have hthere := SummaryCache.contains_of_get? hc
    exact .single hk (.refl _) hthere fun _ hq => .inl hq
  | none =>
    rw [summarize_of_uncached hc]
    have hthere : (Nested.start g v callee).2.cache.contains callee = true :=
      Nested.contains_start.mpr (.inl rfl)
    refine .single hk (Nested.grows_start v callee) hthere fun q hq => ?_
    -- the last call on the chain to a new routine is what was asked for
    refine (Nested.contains_start_iff.mp hq).imp_right fun hchain => ?_
    cases hchain with
    | refl => exact ⟨id, s, hs, hk⟩
    | tail _ hstep => exact ⟨_, hstep.1⟩

theorem Detection.contribution_fills {id : RoutineId} {s : Site} (hs : s ∈ g.sites id)
    (own : RoutineId) :
    SummaryCache.Fills g v.cache [s] (contribution g false v own s).2.cache := by
  unfold contribution
  cases hk : s.kind with
  | call callee =>
    obtain ⟨summary, u, hsum⟩ := summarize_succeeds g v callee
    have hfills := summarize_fills g v hs hk
    rw [hsum] at hfills
    simpa only [hsum] using hfills
  | _ => exact .none (by simp [hk])

theorem Detection.contributions_fills {id : RoutineId} {sites : List Site}
    (hsites : sites ⊆ g.sites id) (own : RoutineId) :
    SummaryCache.Fills g v.cache sites (contributions g false v own sites).2.cache := by
  induction sites generalizing v with
  | nil => exact .none fun _ hs => absurd hs List.not_mem_nil
  | cons s rest ih =>
    obtain ⟨effects, u, hs⟩ := contribution_succeeds g v own s
    obtain ⟨all, w, hrest, _⟩ := contributions_succeed g u own rest
    have hfirst := contribution_fills g v (hsites (.head _)) own
    have hothers := ih u fun _ hs => hsites (.tail _ hs)
    rw [hs] at hfirst
    rw [hrest] at hothers
    have hjoined := hfirst.append hothers
    rw [List.singleton_append] at hjoined
    simpa only [contributions, hs, hrest] using hjoined

theorem check_fills (rules : Rules) (id : RoutineId) :
    SummaryCache.Fills g v.cache (g.sites id) (check g rules false v id).2.cache := by
  cases hr : g.routine? id with
  | none =>
    have hsites : g.sites id = [] := by simp [CallGraph.sites, hr]
    rw [hsites]
    simpa [check, hr] using SummaryCache.Fills.none (by simp)
  | some r =>
    have hsites : g.sites id = r.sites := by simp [CallGraph.sites, hr]
    obtain ⟨all, u, hall, _⟩ := Detection.contributions_succeed g v r.id r.sites
    have hfills := Detection.contributions_fills g v (List.Subset.refl (g.sites id)) r.id
    rw [hsites, hall] at hfills
    rwa [check_of_contributions hr hall, hsites]

variable {v} in
theorem checkEach_fills (rules : Rules) {ids : List RoutineId} {reports : List Report} {u : View}
    (h : checkEach g rules false v ids = (.ok reports, u)) :
    SummaryCache.Fills g v.cache (ids.flatMap g.sites) u.cache ∧ reports.length = ids.length := by
  induction ids generalizing v reports with
  | nil =>
    obtain ⟨rfl, rfl⟩ : [] = reports ∧ v = u := by simpa [checkEach] using h
    exact ⟨.none fun _ hs => absurd hs List.not_mem_nil, rfl⟩
  | cons id rest ih =>
    obtain ⟨report, w, hcheck⟩ := check_succeeds g rules v id
    obtain ⟨others, x, heach⟩ := Parallel.checkEach_succeeds g rules w rest
    obtain ⟨rfl, rfl⟩ : report :: others = reports ∧ x = u := by
      simpa [checkEach, hcheck, heach] using h
    have hfirst := check_fills g v rules id
    rw [hcheck] at hfirst
    obtain ⟨hothers, hlength⟩ := ih heach
    exact ⟨hfirst.append hothers, by rw [List.length_cons, List.length_cons, hlength]⟩

end Runs

section Counts
variable {g : CallGraph}

theorem CallGraph.length_bodies (g : CallGraph) :
    g.bodies.length = g.routines.countP Routine.hasBody := by
  rw [bodies, List.length_map, List.countP_eq_length_filter]

theorem CallGraph.Indexed.bodies_ascend (hg : g.Indexed) : g.bodies.Pairwise (· < ·) := by
  rw [hg.bodies_eq_filter]
  exact List.pairwise_lt_range.filter _

/-- A routine without a body calls nothing. -/
def CallGraph.Bodied (g : CallGraph) : Prop := ∀ r ∈ g.routines, r.sites ≠ [] → r.hasBody = true

theorem Lowering.graph_bodied (v : Vocabulary) (declared : Nat) (routines : List Declaration) :
    (graph v declared routines).Bodied := by
  intro r hr hsites
  obtain ⟨id, hid⟩ := List.getElem?_of_mem hr
  rw [graph, List.getElem?_mapIdx] at hid
  obtain ⟨d, _, rfl⟩ := Option.map_eq_some_iff.mp hid
  rw [routine] at hsites ⊢
  cases hbody : d.body with
  | some body => rfl
  | none => simp [hbody, sites, Operation.optionCalls] at hsites

theorem CallGraph.ofProgram_bodied {s : Settings} {p : Program} (h : ofProgram s p = .ok g) :
    g.Bodied := by
  obtain ⟨_, rfl⟩ := ofProgram_eq_ok_iff.mp h
  exact Lowering.graph_bodied _ _ _

/-- The checks of all bodies go through all sites of the graph. -/
theorem CallGraph.mem_bodies_of_calls (hg : g.Indexed) (hbodied : g.Bodied) {caller callee : RoutineId}
    (h : g.Calls caller callee) : caller ∈ g.bodies := by
  obtain ⟨s, hs, _⟩ := h
  obtain ⟨r, hr, hs⟩ := mem_sites_iff.mp hs
  have hbody := hbodied r (List.mem_of_getElem? hr) (List.ne_nil_of_mem hs)
  rw [hg.mem_bodies_iff, hr]
  exact hbody

theorem contains_iff_called (hg : g.Indexed) (hbodied : g.Bodied) {c : SummaryCache}
    (h : SummaryCache.Fills g FirstWrite.empty (g.bodies.flatMap g.sites) c) (q : RoutineId) :
    c.contains q = true ↔ q ∈ g.callees := by
  rw [CallGraph.mem_callees_iff]
  constructor
  · intro hq
    exact (h.called q hq).resolve_left Bool.false_ne_true
  · rintro ⟨caller, hcall⟩
    have hcaller := CallGraph.mem_bodies_of_calls hg hbodied hcall
    obtain ⟨s, hs, hk⟩ := hcall
    exact h.callees s (List.mem_flatMap.mpr ⟨caller, hcaller, hs⟩) q hk

end Counts

/-- An analysis of any graph that comes from a program, whatever cycles it has, comes to an end. It has cached as many
summaries as there are routines that are called somewhere, and checked as many routines as have a body, one after the
other in the order of the graph. Its report is what these checks report, sorted by file, start and code, where
diagnostics that agree in these stand in the order in which they were reported. -/
theorem analysis_counts {s : Settings} {p : Program} {g : CallGraph}
    (hg : CallGraph.ofProgram s p = .ok g) (rules : Rules) :
    ∃ a reports u, analyze g rules false = .ok a ∧
      checkEach g rules false {} g.bodies = (.ok reports, u) ∧ g.bodies.Pairwise (· < ·) ∧
      a.cached = g.callees.length ∧ a.checked = g.routines.countP Routine.hasBody ∧
      reports.length = a.checked ∧ Report.SortsInto reports.flatten a.report := by
  have hindexed := CallGraph.ofProgram_indexed hg
  obtain ⟨reports, u, heach⟩ := Parallel.checkEach_succeeds g rules {} g.bodies
  obtain ⟨hfills, hlength⟩ := checkEach_fills g rules heach
  have hcontains := contains_iff_called hindexed (CallGraph.ofProgram_bodied hg) hfills
  refine ⟨⟨Report.sort reports.flatten, g.bodies.length, u.cache.size⟩, reports, u, ?_, heach,
    hindexed.bodies_ascend, ?_, g.length_bodies, hlength, Report.sortsInto_sort reports.flatten⟩
  · simp [analyze, checkAll_of_each heach]
  · exact FirstWrite.size_eq_length (List.nodup_dedup _) hcontains

open Scenario in
/-- Two routines that call each other, one that nothing calls, and one without a body. -/
def bareAndMutual : List Declaration :=
  [routine "A" none [] none [provide "X" 70, call "B" 80 []],
    routine "B" none [] none [provide "Y" 40, call "A" 50 [], call "B" 60 []],
    routine "C" none [] none [provide "X" 10, call "A" 20 [], provide "Z" 30, call "D" 35 []],
    { routine "D" none [] none [] with body := none }]

theorem analysis_counts_of_mutual :
    ∃ g a reports u, CallGraph.ofProgram {} ⟨bareAndMutual⟩ = .ok g ∧ analyze g {} false = .ok a ∧
      checkEach g {} false {} g.bodies = (.ok reports, u) ∧ g.bodies = [0, 1, 2] ∧
      a.cached = 2 ∧ a.checked = 3 ∧ Report.SortsInto reports.flatten a.report ∧
      reports.flatten.map Diagnostic.start = [80, 60, 60, 20] ∧
      a.report.map Diagnostic.start = [20, 60, 60, 80] := by
  obtain ⟨g, hg⟩ :
      ∃ g, g = Lowering.graph {} 4 (bareAndMutual ++ Lowering.wrappers {} bareAndMutual) := ⟨_, rfl⟩
  have hok : CallGraph.ofProgram {} ⟨bareAndMutual⟩ = .ok g :=
    hg ▸ CallGraph.ofProgram_of_nodup {} (by decide)
  have hbodies : g.bodies = [0, 1, 2] := by subst hg; decide
  have hcallees : g.callees.length = 2 := by subst hg; decide
  have hwith : g.routines.countP Routine.hasBody = 3 := by subst hg; decide
  obtain ⟨a, reports, u, hanalyze, heach, _, hcached, hchecked, _, hsorts⟩ := analysis_counts hok {}
  obtain ⟨found, w, hrun, hstarts, hfiles⟩ :
      ∃ found w, checkEach g {} false {} [0, 1, 2] = (.ok found, w) ∧
      found.flatten.map Diagnostic.start = [80, 60, 60, 20] ∧
      found.flatten.map Diagnostic.file = List.replicate 4 (some "scenario.cs") :=
    hg ▸ ⟨_, _, rfl, rfl, rfl⟩
  obtain ⟨rfl, rfl⟩ : found = reports ∧ w = u := by
    simpa only [hbodies, hrun, Prod.mk.injEq, Except.ok.injEq] using heach
  -- all reports lie in one file, so their starts alone fix the order
  have hperm : (a.report.map Diagnostic.start).Perm [20, 60, 60, 80] :=
    (hstarts ▸ hsorts.perm.map Diagnostic.start).trans (by decide)
  have hascend := hsorts.starts_ascend fun d hd =>
    (List.eq_replicate_iff.mp hfiles).2 d.file (List.mem_map_of_mem hd)
  exact ⟨g, a, found, w, hok, hanalyze, heach, hbodies, hcached.trans hcallees,
    hchecked.trans hwith, hsorts, hstarts,
    hperm.eq_of_pairwise (fun _ _ _ _ => Nat.le_antisymm) hascend (by decide)⟩

end AmbientScope
