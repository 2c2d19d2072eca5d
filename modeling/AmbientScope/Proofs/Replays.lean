import AmbientScope.Proofs.FilledTemplates
import AmbientScope.Proofs.Permanence
import AmbientScope.Proofs.RuleToggles

/-!
# What a check replays

A summarization suspends a routine at each call and comes back to it with the summary of the callee; a check goes
through the sites of its routine once and asks for summaries. Both meet the same effects. The trace is a local matter
of the check, so it is brought to light first: the sites are checked once more by a loop that also returns the trace
it ends with.
-/

set_option autoImplicit false

namespace AmbientScope

/-- The effects of a trace, earliest first. -/
def Trace.effects (t : Trace) : List Effect := (t.map TraceEntry.effect).reverse

namespace Detection

theorem effects_traceOf (es : List (Site × Effect)) : (traceOf es).effects = es.map Prod.snd := by
  simp [Trace.effects, traceOf, Function.comp_def, entry]

/-- As `checkSites`, but with the trace at the end. -/
def replaySites (g : CallGraph) (rules : Rules) (cancelled : Bool) (r : Routine) (t : Trace)
    (report : Report) (v : View) : List Site → Except Failure (Trace × Report) × View
  | [] => (.ok (t, report), v)
  | s :: rest =>
    match contribution g cancelled v r.id s with
    | (.error f, v) => (.error f, v)
    | (.ok effects, v) =>
      replaySites g rules cancelled r (t.record s effects)
        (report ++ siteReport rules r s t false effects) v rest

section Replay
variable (g : CallGraph) (rules : Rules) (cancelled : Bool) (r : Routine) (t : Trace)
  (report : Report) (v : View) (sites : List Site)

theorem checkSites_eq_replaySites :
    checkSites g rules cancelled r t report v sites =
      ((replaySites g rules cancelled r t report v sites).1.map Prod.snd,
        (replaySites g rules cancelled r t report v sites).2) := by
  induction sites generalizing t report v with
  | nil => rfl
  | cons s rest ih =>
    rw [checkSites, replaySites]
    rcases contribution g cancelled v r.id s with ⟨result | effects, u⟩
    · rfl
    · exact ih _ _ u

variable {g v} in
/-- The trace ends as the stream of all contributions. -/
theorem replaySites_of_contributions {u : View} {all : List (Site × List Effect)}
    (h : contributions g false v r.id sites = (.ok all, u)) :
    replaySites g rules false r t report v sites =
      (.ok (traceOf (stream all) ++ t, report ++ reportOf rules r t all), u) := by
  induction sites generalizing t report v all with
  | nil =>
    obtain ⟨rfl, rfl⟩ : all = [] ∧ u = v := by simpa [contributions, eq_comm] using h
    simp [replaySites, stream, traceOf, reportOf]
  | cons s rest ih =>
    obtain ⟨effects, w, hs⟩ := contribution_succeeds g v r.id s
    obtain ⟨others, x, hrest, _⟩ := contributions_succeed g w r.id rest
    simp only [contributions, hs, hrest, Prod.mk.injEq, Except.ok.injEq] at h
    obtain ⟨rfl, rfl⟩ := h
    rw [replaySites, hs]
    simp only [ih _ _ hrest, record_eq_traceOf, reportOf]
    simp [stream, traceOf]

end Replay

/-- When effects are echoed, the report goes through the stream. -/
theorem echoes_reportOf {rules : Rules} (hecho : rules.debugEcho = true) (r : Routine) (t : Trace)
    (all : List (Site × List Effect)) :
    ((reportOf rules r t all).ofCode 9000).map Diagnostic.message =
      (stream all).map fun x => x.2.action.describe := by
  induction all generalizing t with
  | nil => rfl
  | cons c rest ih =>
    obtain ⟨s, effects⟩ := c
    have hmessage (e : Effect) :
        (atSite r s .debugEcho [e.action.describe]).message = e.action.describe :=
      Template.debugEcho_fill e.action.describe
    rw [reportOf, Report.ofCode_append, List.map_append, ih, Report.ofCode,
      filter_siteReport_echo hecho]
    simp [stream, Function.comp_def, hmessage]

end Detection

/-- As `check`, but with the trace at the end. -/
def replay (g : CallGraph) (rules : Rules) (cancelled : Bool) (v : View) (id : RoutineId) :
    Except Failure (Trace × Report) × View :=
  if cancelled then (.error .cancelled, v)
  else
    match g.routine? id with
    | none => (.ok ([], []), v)
    | some r => Detection.replaySites g rules cancelled r [] [] v r.sites

theorem check_eq_replay (g : CallGraph) (rules : Rules) (cancelled : Bool) (v : View)
    (id : RoutineId) : check g rules cancelled v id =
      ((replay g rules cancelled v id).1.map Prod.snd, (replay g rules cancelled v id).2) := by
  cases cancelled with
  | true => rfl
  | false =>
    cases hr : g.routine? id with
    | none => simp [check, replay, hr, Except.map]
    | some r =>
      have hsites := Detection.checkSites_eq_replaySites g rules false r [] [] v r.sites
      simpa [check, replay, hr] using hsites

/-- What a check of a routine replays when no cycle can be reached from it. -/
def CallGraph.stream (g : CallGraph) (id : RoutineId) : List (Site × Effect) :=
  Detection.stream ((g.sites id).map fun s => (s, s.inlined id g.expansion))

theorem Detection.contributions_stream {g : CallGraph} {id : RoutineId} {r : Routine} {v : View}
    (hid : g.AcyclicFrom id) (hr : g.routine? id = some r) (hown : r.id = id)
    (hmarks : v.marks = []) (hcache : v.cache.Exact g) :
    ∃ all u, contributions g false v r.id r.sites = (.ok all, u) ∧ stream all = g.stream id := by
  have hsites : g.sites id = r.sites := by simp [CallGraph.sites, hr]
  obtain ⟨all, u, hall, _, _, hexact⟩ := contributions_exact r.id r.sites hmarks hcache
  refine ⟨all, u, hall, ?_⟩
  rw [hown, ← hsites] at hexact
  rw [hexact hid (List.Subset.refl _)]
  rfl

theorem CallGraph.map_stream (g : CallGraph) (id : RoutineId) :
    (g.stream id).map Prod.snd = (g.sites id).flatMap fun s => s.inlined id g.expansion := by
  simp [stream, Detection.stream, List.flatMap_map, List.map_flatMap, Function.comp_def]

theorem CallGraph.ofSites_indexed (routines : List (Option String × List (SiteClass × Bool))) :
    (ofSites routines).Indexed := by
  constructor
  · intro id r hr
    rw [routine?, ofSites, List.getElem?_mapIdx] at hr
    obtain ⟨x, _, rfl⟩ := Option.map_eq_some_iff.mp hr
    rfl
  · intro id r i s hr hs
    rw [routine?, ofSites, List.getElem?_mapIdx] at hr
    obtain ⟨x, _, rfl⟩ := Option.map_eq_some_iff.mp hr
    rw [List.getElem?_mapIdx] at hs
    obtain ⟨y, _, rfl⟩ := Option.map_eq_some_iff.mp hs
    rfl

/-- The trace of a routine without a cycle below it, whatever has been cached before. -/
theorem replay_exact {g : CallGraph} {id : RoutineId} {v : View} (hg : g.Indexed)
    (hid : g.AcyclicFrom id) (hmarks : v.marks = []) (hcache : v.cache.Exact g) (rules : Rules) :
    ∃ t report u, replay g rules false v id = (.ok (t, report), u) ∧
      t.effects = (g.sites id).flatMap (fun s => s.inlined id g.expansion) ∧
      (rules.debugEcho = true →
        (report.ofCode 9000).map Diagnostic.message = t.effects.map fun e => e.action.describe) := by
  cases hr : g.routine? id with
  | none =>
    refine ⟨[], [], v, by simp [replay, hr], ?_, fun _ => rfl⟩
    simp [CallGraph.sites, hr, Trace.effects]
  | some r =>
    obtain ⟨all, u, hall, hstream⟩ :=
      Detection.contributions_stream hid hr (hg.routine id r hr) hmarks hcache
    have hreplay := Detection.replaySites_of_contributions rules r [] [] r.sites hall
    rw [List.append_nil, List.nil_append] at hreplay
    refine ⟨_, _, u, by simpa [replay, hr] using hreplay, ?_, fun hecho => ?_⟩
    · rw [Detection.effects_traceOf, hstream, CallGraph.map_stream]
    · rw [Detection.echoes_reportOf hecho, Detection.effects_traceOf, List.map_map]
      rfl

namespace Session

theorem replay_of_settled {s : Session} (h : s.Settled) (hg : s.graph.Indexed) {id : RoutineId}
    (hid : s.graph.AcyclicFrom id) {i : Nat} (hi : s.isCancelled i = false) :
    ∃ t report, (replay s.graph s.rules false (s.view i) id).1 = .ok (t, report) ∧
      t.effects = (s.graph.sites id).flatMap (fun x => x.inlined id s.graph.expansion) ∧
      (s.perform (.check i id)).1 = .report report ∧
      (s.rules.debugEcho = true →
        (report.ofCode 9000).map Diagnostic.message = t.effects.map fun e => e.action.describe) := by
  obtain ⟨t, report, u, hreplay, heffects, hecho⟩ :=
    replay_exact (v := s.view i) hg hid (h.unmarked i hi) h.exact s.rules
  have hcheck := check_eq_replay s.graph s.rules false (s.view i) id
  rw [hreplay, Except.map] at hcheck
  exact ⟨t, report, congrArg Prod.fst hreplay, heffects, by simp [perform, hi, hcheck], hecho⟩

/-- Of a routine without a cycle below it, in a session without publications on a graph that numbers its routines by
position, as every graph of a program does. Each worker that is not cancelled checks the routine, whatever was
requested before, and ends with the same effects on the trace: those which requests for its summary are answered with,
behind the push of its own scope if it has one. Where effects are echoed, these are the echoes. That the trace is
looked at does not change the check. -/
theorem check_replays_summary (g : CallGraph) (hg : g.Indexed) (rules : Rules) (tokens : List Nat)
    (requests : List Request) (hrequests : ∀ q ∈ requests, q.publishes = false) (id : RoutineId)
    (hid : g.AcyclicFrom id) :
    (∀ cancelled v, check g rules cancelled v id =
      ((replay g rules cancelled v id).1.map Prod.snd, (replay g rules cancelled v id).2)) ∧
    ∃ effects, Summarizes g id (Summary.bounded g id effects) ∧
      let s := ((start g rules tokens).performAll requests).2
      ∀ i, s.isCancelled i = false → ∃ t report,
        (replay g rules false (s.view i) id).1 = .ok (t, report) ∧ t.effects = effects ∧
        (s.perform (.check i id)).1 = .report report ∧
        (rules.debugEcho = true →
          (report.ofCode 9000).map Diagnostic.message = effects.map fun e => e.action.describe) := by
  refine ⟨fun cancelled v => check_eq_replay g rules cancelled v id,
    (g.sites id).flatMap fun s => s.inlined id g.expansion, ?_, fun i hi => ?_⟩
  · rw [← CallGraph.expansion_eq hid]
    exact summarizes_expansion hid
  · have hsettled := performAll_settled (start_settled g rules tokens) hrequests
    have hgraph : ((start g rules tokens).performAll requests).2.graph = g :=
      performAll_graph (start g rules tokens) requests
    have hrules : ((start g rules tokens).performAll requests).2.rules = rules :=
      performAll_rules (start g rules tokens) requests
    obtain ⟨t, report, hreplay, heffects, hcheck, hecho⟩ :=
      replay_of_settled hsettled (hgraph.symm ▸ hg) (hgraph.symm ▸ hid) hi
    rw [hgraph, hrules] at hreplay
    rw [hgraph] at heffects
    rw [hrules] at hecho
    exact ⟨t, report, hreplay, heffects, hcheck, fun h => heffects ▸ hecho h⟩

/-- The first routine and the second one have a scope each. The second one is called twice, once where it may not run,
and resolves where that may not run; the other two call each other. -/
def framedBeside : CallGraph := CallGraph.ofSites
  [(some "Outer",
      [(.call 1, true), (.direct (.provide ⟨"T", none⟩), false), (.inert .pop, false), (.call 1, false)]),
   (some "Inner",
      [(.direct (.provide ⟨"U", some "u"⟩), false), (.direct (.resolve ⟨"T", none⟩), true)]),
   (none, [(.call 3, false), (.call 0, false)]),
   (none, [(.call 2, false)])]

theorem check_replays_summary_of_framed :
    framedBeside.Indexed ∧ framedBeside.AcyclicFrom 0 ∧
    (∀ q ∈ cancelledBeside, q.publishes = false) ∧
    let s := ((start framedBeside { debugEcho := true } [0, 1]).performAll cancelledBeside).2
    s.isCancelled 0 = false ∧
    (s.perform (.summarize 0 0)).1 = .summary
      [⟨.push "Outer", false, .boundary 0⟩, ⟨.push "Inner", true, .boundary 1⟩,
        ⟨.provide ⟨"U", some "u"⟩, true, .site 1 0⟩, ⟨.resolve ⟨"T", none⟩, true, .site 1 1⟩,
        ⟨.provide ⟨"T", none⟩, false, .site 0 1⟩, ⟨.push "Inner", false, .boundary 1⟩,
        ⟨.provide ⟨"U", some "u"⟩, false, .site 1 0⟩, ⟨.resolve ⟨"T", none⟩, true, .site 1 1⟩] ∧
    ∃ report, (s.perform (.check 0 0)).1 = .report report ∧
      (report.ofCode 9000).map Diagnostic.message =
        ["Push(Inner)", "Provide(U[\"u\"])", "Resolve(T)", "Provide(T)", "Push(Inner)",
          "Provide(U[\"u\"])", "Resolve(T)"] := by
  have hg : framedBeside.Indexed := CallGraph.ofSites_indexed _
  have hdescends : framedBeside.descends [0, 1] (fun id => 1 - id) = true := by decide
  have hid : framedBeside.AcyclicFrom 0 := CallGraph.acyclicFrom_of_descends hdescends (by decide)
  have hrequests : ∀ q ∈ cancelledBeside, q.publishes = false := by decide
  obtain ⟨_, effects, hsummary, hchecks⟩ :=
    check_replays_summary framedBeside hg { debugEcho := true } [0, 1] cancelledBeside hrequests 0 hid
  have hrunning : isCancelled ((start framedBeside { debugEcho := true } [0, 1]).performAll
      cancelledBeside).2 0 = false := by
    decide
  obtain ⟨_, report, _, _, hcheck, hecho⟩ := hchecks 0 hrunning
  have hanswer := hsummary { debugEcho := true } [0, 1] cancelledBeside hrequests 0
  have hexpansion := summarizes_expansion hid { debugEcho := true } [0, 1] cancelledBeside hrequests 0
  have hframed : Summary.bounded framedBeside 0 effects = framedBeside.expansion 0 := by
    rw [hexpansion] at hanswer
    simpa [hrunning] using hanswer.symm
  obtain rfl : effects = (framedBeside.expansion 0).tail := by
    rw [← hframed]
    rfl
  refine ⟨hg, hid, hrequests, hrunning, ?_, report, hcheck, hecho rfl⟩
  rw [hanswer]
  rfl

end Session

end AmbientScope
