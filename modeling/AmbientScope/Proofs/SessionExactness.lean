import AmbientScope.Proofs.Contributions
import AmbientScope.Proofs.Expansion
import AmbientScope.Session

/-!
# Exact summaries in sessions

Between the requests of a session, a worker that is not cancelled has no marks, and a routine without a cycle
below it has its expansion in the cache or nothing. No request but a publication can change this, so what was
asked before, by whom, and what was cancelled has no influence on the summaries of these routines.
-/

set_option autoImplicit false

namespace AmbientScope

namespace Detection
variable {g : CallGraph}

theorem contribution_exact {v : View} (id : RoutineId) (s : Site) (hmarks : v.marks = [])
    (hcache : v.cache.Exact g) :
    ∃ effects u, contribution g false v id s = (.ok effects, u) ∧ u.marks = [] ∧
      u.cache.Exact g ∧
      (g.AcyclicFrom id → s ∈ g.sites id → effects = s.inlined id g.expansion) := by
  unfold contribution
  cases hk : s.kind with
  | direct action => exact ⟨_, v, rfl, hmarks, hcache, fun _ _ => by simp [Site.inlined, hk]⟩
  | inert op => exact ⟨_, v, rfl, hmarks, hcache, fun _ _ => by simp [Site.inlined, hk]⟩
  | external => exact ⟨_, v, rfl, hmarks, hcache, fun _ _ => by simp [Site.inlined, hk]⟩
  | call callee =>
    obtain ⟨summary, u, hsum, hquiet, hexact, hsummary⟩ := summarize_exact callee hmarks hcache
    refine ⟨summary.splice s.hidden, u, by simp only [hsum], hquiet, hexact, fun hid hs => ?_⟩
    simp [Site.inlined, hk, hsummary (hid.of_calls ⟨s, hs, hk⟩)]

theorem contributions_exact {v : View} (id : RoutineId) (sites : List Site)
    (hmarks : v.marks = []) (hcache : v.cache.Exact g) :
    ∃ all u, contributions g false v id sites = (.ok all, u) ∧ u.marks = [] ∧
      u.cache.Exact g ∧
      (g.AcyclicFrom id → sites ⊆ g.sites id →
        all = sites.map fun s => (s, s.inlined id g.expansion)) := by
  induction sites generalizing v with
  | nil => exact ⟨[], v, rfl, hmarks, hcache, fun _ _ => rfl⟩
  | cons s rest ih =>
    obtain ⟨effects, u, hs, hquiet, hexact, heffects⟩ := contribution_exact id s hmarks hcache
    obtain ⟨all, w, hrest, hquiet', hexact', hall⟩ := ih hquiet hexact
    refine ⟨(s, effects) :: all, w, by simp only [contributions, hs, hrest], hquiet', hexact', ?_⟩
    intro hid hsub
    rw [heffects hid (hsub (.head _)), hall hid fun _ h => hsub (.tail _ h), List.map_cons]

end Detection

theorem check_exact {g : CallGraph} (rules : Rules) {v : View} (id : RoutineId)
    (hmarks : v.marks = []) (hcache : v.cache.Exact g) :
    ∃ report u, check g rules false v id = (.ok report, u) ∧ u.marks = [] ∧
      u.cache.Exact g := by
  cases hr : g.routine? id with
  | none => exact ⟨[], v, by simp [check, hr], hmarks, hcache⟩
  | some r =>
    obtain ⟨all, u, hall, hquiet, hexact, _⟩ :=
      Detection.contributions_exact r.id r.sites hmarks hcache
    exact ⟨_, u, check_of_contributions hr hall, hquiet, hexact⟩

/-- Whether a request writes a summary of its own into the cache. -/
def Request.publishes : Request → Bool
  | .publish _ _ => true
  | _ => false

namespace Session

/-- What holds between requests. -/
structure Settled (s : Session) : Prop where
  exact : s.cache.Exact s.graph
  unmarked : ∀ i, s.isCancelled i = false → (s.worker i).marks = []

theorem start_settled (g : CallGraph) (rules : Rules) (tokens : List Nat) :
    (start g rules tokens).Settled := by
  refine ⟨SummaryCache.exact_empty g, fun i _ => ?_⟩
  simp only [start, worker, List.getElem?_map]
  cases tokens[i]? <;> rfl

variable {s : Session}

theorem Settled.withView (h : s.Settled) {i : Nat} {v : View} (hexact : v.cache.Exact s.graph)
    (hmarks : s.isCancelled i = false → v.marks = []) : (s.withView i v).Settled := by
  refine ⟨hexact, fun j hj => ?_⟩
  rw [isCancelled_withView] at hj
  rw [worker_withView]
  split
  · rename_i hji
    exact hmarks (hji.1 ▸ hj)
  · exact h.unmarked j hj

theorem summarize_cancelled_cache (g : CallGraph) (v : View) (id : RoutineId) :
    (summarize g true v id).2.cache = v.cache := by
  unfold summarize
  cases v.cache.get? id with
  | some summary => rfl
  | none => simp

theorem perform_summarize_settled (h : s.Settled) (i : Nat) (id : RoutineId) :
    (s.perform (.summarize i id)).2.Settled := by
  rw [perform_summarize]
  cases hc : s.isCancelled i with
  | false =>
    obtain ⟨summary, u, hsum, hquiet, hexact, _⟩ :=
      summarize_exact (g := s.graph) (v := s.view i) id (h.unmarked i hc) h.exact
    rw [hsum]
    exact h.withView hexact fun _ => hquiet
  | true =>
    refine h.withView ?_ fun hf => absurd hc (by simp [hf])
    rw [summarize_cancelled_cache]
    exact h.exact

theorem perform_check_settled (h : s.Settled) (i : Nat) (id : RoutineId) :
    (s.perform (.check i id)).2.Settled := by
  rw [perform_check]
  cases hc : s.isCancelled i with
  | false =>
    obtain ⟨report, u, hcheck, hquiet, hexact⟩ :=
      check_exact (g := s.graph) s.rules (v := s.view i) id (h.unmarked i hc) h.exact
    rw [hcheck]
    exact h.withView hexact fun _ => hquiet
  | true => exact h.withView h.exact fun hf => absurd hc (by simp [hf])

/-- A token that is set is never unset. -/
theorem perform_cancel_settled (h : s.Settled) (token : Nat) :
    (s.perform (.cancel token)).2.Settled := by
  refine ⟨h.exact, fun i hi => h.unmarked i ?_⟩
  simp only [perform, isCancelled, worker, List.getElem?_set] at hi ⊢
  split at hi
  · split at hi
    · simp at hi
    · rename_i heq hlen
      simp [List.getElem?_eq_none_iff.mpr (heq ▸ Nat.le_of_not_lt hlen)]
  · exact hi

theorem perform_settled (h : s.Settled) {q : Request} (hq : q.publishes = false) :
    (s.perform q).2.Settled := by
  cases q with
  | summarize i id => exact perform_summarize_settled h i id
  | check i id => exact perform_check_settled h i id
  | state i id => exact h
  | cached id => exact h
  | publish id summary => simp [Request.publishes] at hq
  | cancel token => exact perform_cancel_settled h token
  | checkCancelled i => exact h

theorem performAll_settled {requests : List Request} (h : s.Settled)
    (hq : ∀ q ∈ requests, q.publishes = false) : (s.performAll requests).2.Settled := by
  induction requests generalizing s with
  | nil => exact h
  | cons q rest ih =>
    exact ih (perform_settled h (hq q (.head _))) fun q' hq' => hq q' (.tail _ hq')

/-- What a settled session answers when it is asked for the summary of a routine without a cycle below it. -/
theorem perform_summarize_of_settled (h : s.Settled) {id : RoutineId}
    (hid : s.graph.AcyclicFrom id) (i : Nat) :
    (s.perform (.summarize i id)).1 =
      if s.isCancelled i = true ∧ s.cache.get? id = none then .failure .cancelled
      else .summary (s.graph.expansion id) := by
  cases hc : s.isCancelled i with
  | false =>
    obtain ⟨summary, u, hsum, _, _, hsummary⟩ :=
      summarize_exact (g := s.graph) (v := s.view i) id (h.unmarked i hc) h.exact
    simp [perform, hc, hsum, hsummary hid]
  | true =>
    cases hcached : s.cache.get? id with
    | none => simp [perform, summarize, view, hc, hcached]
    | some summary => simp [perform, summarize, view, hcached, h.exact id summary hid hcached]

/-- Every session without publications answers requests for the summary of the routine with this one, unless a
cancelled worker would have to compute it. -/
def Summarizes (g : CallGraph) (id : RoutineId) (summary : Summary) : Prop :=
  ∀ (rules : Rules) (tokens : List Nat) (requests : List Request),
    (∀ q ∈ requests, q.publishes = false) →
    let s := ((start g rules tokens).performAll requests).2
    ∀ i, (s.perform (.summarize i id)).1 =
      if s.isCancelled i = true ∧ s.cache.get? id = none then .failure .cancelled
      else .summary summary

theorem summarizes_expansion {g : CallGraph} {id : RoutineId} (hid : g.AcyclicFrom id) :
    Summarizes g id (g.expansion id) := by
  intro rules tokens requests hrequests
  have hsettled := performAll_settled (start_settled g rules tokens) hrequests
  have hgraph : ((start g rules tokens).performAll requests).2.graph = g :=
    performAll_graph (start g rules tokens) requests
  refine fun i => ?_
  simpa [hgraph] using perform_summarize_of_settled hsettled (hgraph.symm ▸ hid) i

/-- In every session without publications, whatever its workers, tokens and requests, a routine from which no
cycle of calls can be reached has its expansion as its only summary: this is what the cache holds if it holds
anything, and what every request for its summary is answered with, except that a cancelled worker fails to
compute a summary that is not cached yet. The expansion is the recursion along calls. -/
theorem summaries_exact (g : CallGraph) (rules : Rules) (tokens : List Nat)
    (requests : List Request) (hrequests : ∀ q ∈ requests, q.publishes = false)
    (id : RoutineId) (hid : g.AcyclicFrom id) :
    g.expansion id =
      Summary.bounded g id ((g.sites id).flatMap fun s => s.inlined id g.expansion) ∧
    let s := ((start g rules tokens).performAll requests).2
    (∀ summary, s.cache.get? id = some summary → summary = g.expansion id) ∧
    ∀ i, (s.perform (.summarize i id)).1 =
      if s.isCancelled i = true ∧ s.cache.get? id = none then .failure .cancelled
      else .summary (g.expansion id) := by
  refine ⟨CallGraph.expansion_eq hid, ?_⟩
  have hsettled := performAll_settled (start_settled g rules tokens) hrequests
  have hgraph : ((start g rules tokens).performAll requests).2.graph = g :=
    performAll_graph (start g rules tokens) requests
  refine ⟨fun summary hs => ?_, summarizes_expansion hid rules tokens requests hrequests⟩
  exact hgraph ▸ hsettled.exact id summary (hgraph.symm ▸ hid) hs

/-- The first routine calls the second, which has a scope of its own, where that may not run and where it runs; the
second one has an effect that may not run. The other two call each other, and one of them calls the first. -/
def besideCycle : CallGraph := CallGraph.ofSites
  [(none, [(.call 1, true), (.direct (.provide ⟨"T", none⟩), false), (.call 1, false)]),
   (some "Scope", [(.direct (.provide ⟨"T", none⟩), false), (.direct (.resolve ⟨"T", none⟩), true)]),
   (none, [(.call 3, false), (.call 0, false)]),
   (none, [(.call 2, false)])]

/-- One worker meets the cycle first; another one is cancelled before it is asked for the first routine. -/
def cancelledBeside : List Request :=
  [.check 0 3, .cancel 1, .summarize 1 0, .summarize 0 2, .state 1 0]

theorem summaries_exact_beside_cycle :
    besideCycle.AcyclicFrom 0 ∧ (∀ q ∈ cancelledBeside, q.publishes = false) ∧
    let s := ((start besideCycle {} [0, 1]).performAll cancelledBeside).2
    (s.perform (.summarize 0 0)).1 = .summary
      [⟨.push "Scope", true, .boundary 1⟩, ⟨.provide ⟨"T", none⟩, true, .site 1 0⟩,
        ⟨.resolve ⟨"T", none⟩, true, .site 1 1⟩, ⟨.provide ⟨"T", none⟩, false, .site 0 1⟩,
        ⟨.push "Scope", false, .boundary 1⟩, ⟨.provide ⟨"T", none⟩, false, .site 1 0⟩,
        ⟨.resolve ⟨"T", none⟩, true, .site 1 1⟩] := by
  have hdescends : besideCycle.descends [0, 1] (fun id => 1 - id) = true := by decide
  have hid : besideCycle.AcyclicFrom 0 := CallGraph.acyclicFrom_of_descends hdescends (by decide)
  have hrequests : ∀ q ∈ cancelledBeside, q.publishes = false := by decide
  refine ⟨hid, hrequests, ?_⟩
  exact (summaries_exact besideCycle {} [0, 1] cancelledBeside hrequests 0 hid).2.2 0

end Session

end AmbientScope
