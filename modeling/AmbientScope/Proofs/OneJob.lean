import AmbientScope.Proofs.Contributions
import AmbientScope.Proofs.Parallel

/-!
# The run of one job

Checking routines one after the other is what a single job does that is given all of them: its steps are a schedule
of their own. So what holds of all schedules holds of the sequential analysis, which always comes to an end with
a report on every routine.
-/

set_option autoImplicit false

namespace AmbientScope

def checkEach (g : CallGraph) (rules : Rules) (cancelled : Bool) (v : View) :
    List RoutineId → Except Failure (List Report) × View
  | [] => (.ok [], v)
  | id :: rest =>
    match check g rules cancelled v id with
    | (.error f, v) => (.error f, v)
    | (.ok report, v) =>
      match checkEach g rules cancelled v rest with
      | (.error f, v) => (.error f, v)
      | (.ok reports, v) => (.ok (report :: reports), v)

theorem checkAll_of_each {g : CallGraph} {rules : Rules} {cancelled : Bool} {v u : View}
    {ids : List RoutineId} {reports : List Report}
    (h : checkEach g rules cancelled v ids = (.ok reports, u)) :
    checkAll g rules cancelled v ids = (.ok reports.flatten, u) := by
  induction ids generalizing v reports with
  | nil =>
    obtain ⟨rfl, rfl⟩ : [] = reports ∧ v = u := by simpa [checkEach] using h
    rfl
  | cons id rest ih =>
    rw [checkEach] at h
    rw [checkAll]
    rcases hcheck : check g rules cancelled v id with ⟨f | report, w⟩
    · simp [hcheck] at h
    · rcases hrest : checkEach g rules cancelled w rest with ⟨f | others, w'⟩
      · simp [hcheck, hrest] at h
      · obtain ⟨rfl, rfl⟩ : report :: others = reports ∧ w' = u := by
          simpa [hcheck, hrest] using h
        simp [ih hrest]

theorem checkEach_append {g : CallGraph} {rules : Rules} {cancelled : Bool} {v w u : View}
    {ids ids' : List RoutineId} {reports more : List Report}
    (h : checkEach g rules cancelled v ids = (.ok reports, w))
    (h' : checkEach g rules cancelled w ids' = (.ok more, u)) :
    checkEach g rules cancelled v (ids ++ ids') = (.ok (reports ++ more), u) := by
  induction ids generalizing v reports with
  | nil =>
    obtain ⟨rfl, rfl⟩ : [] = reports ∧ v = w := by simpa [checkEach] using h
    exact h'
  | cons id rest ih =>
    rw [checkEach] at h
    rw [List.cons_append, checkEach]
    rcases hcheck : check g rules cancelled v id with ⟨f | report, x⟩
    · simp [hcheck] at h
    · rcases hrest : checkEach g rules cancelled x rest with ⟨f | others, x'⟩
      · simp [hcheck, hrest] at h
      · obtain ⟨rfl, rfl⟩ : report :: others = reports ∧ x' = w := by
          simpa [hcheck, hrest] using h
        simp [ih hrest]

/-- The analysis of a program as a run over its graph. -/
theorem analyzeProgram_of_graph {s : Settings} {p : Program} {g : CallGraph}
    (hg : CallGraph.ofProgram s p = .ok g) {reports : List Report} {u : View}
    (h : checkEach g s.rules false {} g.bodies = (.ok reports, u)) :
    analyzeProgram s p false =
      .ok ⟨Report.sort reports.flatten, g.bodies.length, u.cache.size⟩ := by
  simp [analyzeProgram, hg, Bind.bind, Except.bind, analyze, checkAll_of_each h]

namespace Parallel

/-- An analysis with one job only. -/
def single (v : View) (todo : List RoutineId) (a : Activity) (finished : List (RoutineId × Report)) :
    Parallel :=
  ⟨v.cache, false, [⟨todo, v.marks, a, finished⟩]⟩

variable {g : CallGraph} {rules : Rules} {todo : List RoutineId}
  {finished : List (RoutineId × Report)}

theorem step_single {v : View} (v' : View) {todo' : List RoutineId} {a a' : Activity}
    {finished' : List (RoutineId × Report)}
    (h : Job.step g rules false v.cache ⟨todo, v.marks, a, finished⟩ =
      some (⟨todo', v'.marks, a', finished'⟩, v'.cache)) :
    Step g rules (single v todo a finished) (single v' todo' a' finished') :=
  @Step.job g rules _ _ _ [] [] _ _ h

theorem reaches_of_yields {c : Checking} {s : Site} {w : Walk} {summary : Summary} {u : View}
    (h : Walk.Yields g w summary u) :
    Reaches g rules (single w.view todo (.summarizing c s w.stack) finished)
      (single u todo (.checking (c.take rules s (summary.splice s.hidden))) finished) := by
  induction h with
  | last hw => exact .single (step_single _ (by simp [Job.step, hw]))
  | next hw _ ih => exact .head (step_single _ (by simp [Job.step, hw])) ih

section Schedule
variable (g : CallGraph) (rules : Rules)

theorem reaches_of_contribution (v : View) (c : Checking) (s : Site) :
    ∃ effects u, Detection.contribution g false v c.routine.id s = (.ok effects, u) ∧
      Reaches g rules (single v todo (.checking (c.before s)) finished)
        (single u todo (.checking (c.take rules s effects)) finished) := by
  cases hk : s.kind with
  | direct action =>
    refine ⟨[s.effect c.routine.id action], v, by simp only [Detection.contribution, hk],
      .single (step_single v ?_)⟩
    simp [Job.step, Job.visit, Checking.before, Checking.take, hk]
  | inert op =>
    refine ⟨[], v, by simp only [Detection.contribution, hk], .single (step_single v ?_)⟩
    simp [Job.step, Job.visit, Checking.before, Checking.take, hk]
  | external =>
    refine ⟨[], v, by simp only [Detection.contribution, hk], .single (step_single v ?_)⟩
    simp [Job.step, Job.visit, Checking.before, Checking.take, hk]
  | call callee =>
    cases hget : v.cache.get? callee with
    | some summary =>
      refine ⟨summary.splice s.hidden, v, ?_, .single (step_single v ?_)⟩
      · simp [Detection.contribution, hk, summarize, hget]
      · simp [Job.step, Job.visit, Checking.before, Checking.take, hk, hget]
    | none =>
      refine ⟨(Nested.start g v callee).1.splice s.hidden, (Nested.start g v callee).2, ?_, ?_⟩
      · simp [Detection.contribution, hk, summarize_of_uncached hget]
      · refine .head (step_single (v.mark callee) ?_)
          (reaches_of_yields (Walk.yields_start g v callee))
        simp [Job.step, Job.visit, Checking.before, hk, hget, Walk.start]

theorem reaches_of_contributions (v : View) (c : Checking) :
    ∃ all u, Detection.contributions g false v c.routine.id c.rest = (.ok all, u) ∧
      Reaches g rules (single v todo (.checking c) finished)
        (single u todo .idle
          ((c.id, c.report ++ Detection.reportOf rules c.routine c.trace all) :: finished)) := by
  obtain ⟨id, r, rest, trace, report⟩ := c
  induction rest generalizing v trace report with
  | nil =>
    refine ⟨[], v, rfl, .single (step_single v ?_)⟩
    simp [Job.step, Detection.reportOf]
  | cons s rest ih =>
    obtain ⟨effects, u, hs, hsite⟩ :=
      reaches_of_contribution g rules v ⟨id, r, rest, trace, report⟩ s
    obtain ⟨all, w, hrest, hsites⟩ := ih u (trace.record s effects)
      (report ++ Detection.siteReport rules r s trace false effects)
    refine ⟨(s, effects) :: all, w, by simp only [Detection.contributions, hs, hrest], ?_⟩
    simpa [Detection.reportOf, Checking.before, Checking.take] using hsite.trans hsites

theorem reaches_of_check (v : View) (id : RoutineId) :
    ∃ report u, check g rules false v id = (.ok report, u) ∧
      Reaches g rules (single v (id :: todo) .idle finished)
        (single u todo .idle ((id, report) :: finished)) := by
  cases hr : g.routine? id with
  | none =>
    refine ⟨[], v, by simp [check, hr], .single (step_single v ?_)⟩
    simp [Job.step, hr]
  | some r =>
    obtain ⟨all, u, hall, hreach⟩ :=
      reaches_of_contributions g rules v ⟨id, r, r.sites, [], []⟩
    refine ⟨_, u, check_of_contributions hr hall, .head (step_single v ?_) hreach⟩
    simp [Job.step, hr]

theorem reaches_of_checkEach (v : View) (ids : List RoutineId)
    (finished : List (RoutineId × Report)) :
    ∃ reports u done, checkEach g rules false v ids = (.ok reports, u) ∧
      Reaches g rules (single v ids .idle finished) (single u [] .idle (done ++ finished)) ∧
      done.reverse.map Prod.fst = ids ∧ done.reverse.map Prod.snd = reports := by
  induction ids generalizing v finished with
  | nil => exact ⟨[], v, [], rfl, .refl, rfl, rfl⟩
  | cons id rest ih =>
    obtain ⟨report, u, hcheck, hfirst⟩ := reaches_of_check g rules v id
    obtain ⟨reports, w, done, heach, hreach, hids, hreports⟩ :=
      ih u ((id, report) :: finished)
    refine ⟨report :: reports, w, done ++ [(id, report)], ?_, ?_, ?_, ?_⟩
    · simp [checkEach, hcheck, heach]
    · simpa using hfirst.trans hreach
    · simp [hids]
    · simp [hreports]

theorem checkEach_succeeds (v : View) (ids : List RoutineId) :
    ∃ reports u, checkEach g rules false v ids = (.ok reports, u) := by
  obtain ⟨reports, u, _, heach, _⟩ := reaches_of_checkEach g rules v ids []
  exact ⟨reports, u, heach⟩

theorem reaches_one_job :
    ∃ reports u done, checkEach g rules false {} g.bodies = (.ok reports, u) ∧
      Reaches g rules (start [g.bodies]) (single u [] .idle done) ∧
      done.reverse.map Prod.fst = g.bodies ∧ done.reverse.map Prod.snd = reports := by
  obtain ⟨reports, u, done, heach, hreach, hids, hreports⟩ :=
    reaches_of_checkEach g rules {} g.bodies []
  exact ⟨reports, u, done, heach, by simpa [start, single] using hreach, hids, hreports⟩

end Schedule

end Parallel

end AmbientScope
