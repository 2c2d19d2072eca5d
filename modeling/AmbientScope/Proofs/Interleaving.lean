import AmbientScope.Proofs.OneJob

/-!
# Interleavings

On a graph without cycles, every state that the jobs of an analysis reach is sound: the cache is, each check under
way has reported what it would have reported with all calls replaced by expansions, and each walk is on track. So
every schedule in which no job is stopped ends with the same reports and with the same routines in the cache.
-/

set_option autoImplicit false

namespace AmbientScope

/-- What is reported on a routine whose calls contribute the expansions of their callees. -/
def CallGraph.expandedReport (g : CallGraph) (rules : Rules) (id : RoutineId) : Report :=
  match g.routine? id with
  | none => []
  | some r => Detection.reportOf rules r [] (r.sites.map fun s => (s, s.inlined r.id g.expansion))

/-- A check that has come as far as it would have with expansions for calls. -/
structure Checking.Sound (g : CallGraph) (rules : Rules) (cache : SummaryCache) (c : Checking) :
    Prop where
  routine : g.routine? c.id = some c.routine
  sites : ∀ s ∈ c.rest, s ∈ g.sites c.id
  report : c.report ++ Detection.reportOf rules c.routine c.trace
    (c.rest.map fun s => (s, s.inlined c.routine.id g.expansion)) = g.expandedReport rules c.id
  covers : cache.Covers g c.id c.rest

namespace Checking
variable {g : CallGraph} {rules : Rules} {cache cache' : SummaryCache} {c : Checking}

theorem sound_enter {id : RoutineId} {r : Routine} (hr : g.routine? id = some r) :
    Sound g rules cache ⟨id, r, r.sites, [], []⟩ := by
  have hsites : g.sites id = r.sites := by simp [CallGraph.sites, hr]
  refine ⟨hr, fun s hs => hsites ▸ hs, ?_, fun s hs => .inl (hsites ▸ hs)⟩
  simp [CallGraph.expandedReport, hr]

theorem Sound.mono (h : c.Sound g rules cache) (hgrow : cache.Grows cache') :
    c.Sound g rules cache' where
  routine := h.routine
  sites := h.sites
  report := h.report
  covers := h.covers.mono hgrow

theorem Sound.take {s : Site} {effects : List Effect} (h : (c.before s).Sound g rules cache)
    (heffects : effects = s.inlined c.routine.id g.expansion)
    (hs : ∀ callee, s.kind = .call callee → cache.contains callee = true) :
    (c.take rules s effects).Sound g rules cache where
  routine := h.routine
  sites := fun q hq => h.sites q (.tail _ hq)
  report := by
    rw [← show _ = g.expandedReport rules (c.take rules s effects).id from h.report]
    simp [before, Checking.take, Detection.reportOf, heffects]
  covers := h.covers.pass hs

end Checking

def Activity.Sound (g : CallGraph) (rules : Rules) (v : View) : Activity → Prop
  | .idle => v.marks = []
  | .checking c => v.marks = [] ∧ c.Sound g rules v.cache
  | .summarizing c s stack =>
    (c.before s).Sound g rules v.cache ∧
      ∃ root t outer, s.kind = .call root ∧ stack = t :: outer ∧ Walk.OnTrack g root v t outer
  | .stopped _ => True

theorem Activity.Sound.mono {g : CallGraph} {rules : Rules} {c c' : SummaryCache}
    {marks : List RoutineId} {a : Activity} (h : a.Sound g rules ⟨c, marks⟩) (hgrow : c.Grows c') :
    a.Sound g rules ⟨c', marks⟩ := by
  cases a with
  | idle => exact h
  | checking k => exact ⟨h.1, h.2.mono hgrow⟩
  | summarizing k s stack =>
    obtain ⟨hk, root, t, outer, hs, hstack, hwalk⟩ := h
    exact ⟨hk.mono hgrow, root, t, outer, hs, hstack, hwalk.mono hgrow⟩
  | stopped id => exact h

/-- A finished routine has the report that it should have, and its callees are in the cache. -/
structure Job.Sound (g : CallGraph) (rules : Rules) (cache : SummaryCache) (j : Job) : Prop where
  activity : j.activity.Sound g rules ⟨cache, j.marks⟩
  reports : ∀ e ∈ j.finished, e.2 = g.expandedReport rules e.1
  callees : ∀ e ∈ j.finished, ∀ callee, g.Calls e.1 callee → cache.contains callee = true

namespace Job
variable {g : CallGraph} {rules : Rules} {cancelled : Bool} {cache cache' : SummaryCache} {j j' : Job}

theorem Sound.mono (h : j.Sound g rules cache) (hgrow : cache.Grows cache') :
    j.Sound g rules cache' where
  activity := h.activity.mono hgrow
  reports := h.reports
  callees := fun e he callee hc => hgrow _ (h.callees e he callee hc)

theorem Move.ids (h : Move g rules cancelled cache j j' cache') : j'.ids.Perm j.ids := by
  cases h with
  | @refuse id todo marks finished _ =>
    simp [Job.ids, Activity.routine?, List.perm_middle]
  | @skip id todo marks finished _ =>
    simp [Job.ids, Activity.routine?, List.perm_middle]
  | @enter id r todo marks finished _ =>
    simp [Job.ids, Activity.routine?, List.perm_middle]
  | leave => simp [Job.ids, Activity.routine?]
  | _ => exact .refl _

theorem Move.stopped (h : Move g rules cancelled cache j j' cache')
    (hj : j'.activity.isStopped = true) : cancelled = true := by
  cases h with
  | refuse hc => exact hc
  | interrupt hc => exact hc
  | _ => exact absurd hj Bool.false_ne_true

/-- What a step of one job leaves to itself and to the others. -/
theorem Move.sound (hg : g.Acyclic) (hc : cache.Sound g) (hids : ∀ id ∈ j.ids, id ∈ g.bodies)
    (hj : j.Sound g rules cache) (h : Move g rules cancelled cache j j' cache') :
    cache'.Sound g ∧ j'.Sound g rules cache' := by
  have hgrow := h.grows
  cases h with
  | refuse _ => exact ⟨hc, trivial, hj.reports, hj.callees⟩
  | @skip id todo marks finished hr =>
    have hreport : [] = g.expandedReport rules id := by simp [CallGraph.expandedReport, hr]
    refine ⟨hc, hj.activity, ?_, ?_⟩
    · exact List.forall_mem_cons.mpr ⟨hreport, hj.reports⟩
    · refine List.forall_mem_cons.mpr ⟨?_, hj.callees⟩
      rintro callee ⟨s, hs, _⟩
      simp [CallGraph.sites, hr] at hs
  | enter hr => exact ⟨hc, ⟨hj.activity, Checking.sound_enter hr⟩, hj.reports, hj.callees⟩
  | leave =>
    obtain ⟨hmarks, hcheck⟩ := hj.activity
    refine ⟨hc, hmarks, ?_, ?_⟩
    · refine List.forall_mem_cons.mpr ⟨?_, hj.reports⟩
      simpa [Detection.reportOf] using hcheck.report
    · exact List.forall_mem_cons.mpr ⟨hcheck.covers.callees, hj.callees⟩
  | @pass c s effects todo marks finished hs heffects =>
    obtain ⟨hmarks, hcheck⟩ := hj.activity
    refine ⟨hc, ⟨hmarks, hcheck.take ?_ hs⟩, hj.reports, hj.callees⟩
    rw [heffects]
    apply Site.inlined_congr
    intro callee hk
    obtain ⟨summary, hget⟩ := Option.isSome_iff_exists.mp (hs callee hk)
    simp [hget, hc.exact callee summary (hg.acyclicFrom callee) hget]
  | @descend c s callee todo marks finished hk _ =>
    obtain ⟨hmarks, hcheck⟩ := hj.activity
    have hbody : c.id ∈ g.bodies := hids c.id (by simp [Job.ids, Activity.routine?, Checking.before])
    have hcalled : g.Calls c.id callee := ⟨s, hcheck.sites s (.head _), hk⟩
    have hwalk := Walk.onTrack_start (v := ⟨cache, marks⟩) hg ⟨c.id, hbody, .single hcalled⟩ hmarks
    rw [← view_mark] at hwalk
    exact ⟨hc, ⟨hcheck, callee, _, _, hk, rfl, hwalk⟩, hj.reports, hj.callees⟩
  | interrupt _ => exact ⟨hc, trivial, hj.reports, hj.callees⟩
  | @walk c s stack todo marks finished w hw =>
    obtain ⟨hcheck, root, t, outer, hk, rfl, htrack⟩ := hj.activity
    rcases htrack.step hg hc with ⟨w', t', outer', hw', hsound, hstack, hafter⟩ | ⟨u, hu, _⟩
    · obtain rfl : w' = w := by simpa [hw'] using hw
      exact ⟨hsound, ⟨hcheck.mono hgrow, root, t', outer', hk, hstack, hafter⟩, hj.reports,
        (hj.mono hgrow).callees⟩
    · simp [hu] at hw
  | @arrive c s stack summary todo marks finished v hw =>
    obtain ⟨hcheck, root, t, outer, hk, rfl, htrack⟩ := hj.activity
    rcases htrack.step hg hc with ⟨w, _, _, hw', _⟩ | ⟨u, hu, hsound, hroot, hmarks⟩
    · simp [hw'] at hw
    · obtain ⟨rfl, rfl⟩ : g.expansion root = summary ∧ u = v := by simpa [hu] using hw
      have hcallees := SummaryCache.contains_callee hk hroot
      refine ⟨hsound, ⟨hmarks, (hcheck.mono hgrow).take ?_ hcallees⟩, hj.reports,
        (hj.mono hgrow).callees⟩
      simp [Site.inlined, hk]

theorem step_isSome (j : Job) (hstop : j.activity.isStopped = false) (hdone : j.isDone = false)
    (cancelled : Bool) (cache : SummaryCache) : (j.step g rules cancelled cache).isSome = true := by
  obtain ⟨todo, marks, activity, finished⟩ := j
  cases activity with
  | stopped id => exact absurd hstop (by simp [Activity.isStopped])
  | idle =>
    cases todo with
    | nil => exact absurd hdone (by simp [isDone, Activity.isIdle])
    | cons id todo => cases cancelled <;> cases hr : g.routine? id <;> simp [step, hr]
  | checking c => cases hrest : c.rest <;> simp [step, hrest]
  | summarizing c s stack =>
    cases cancelled <;> cases hw : Walk.step g ⟨⟨cache, marks⟩, stack⟩ <;> simp [step, hw]

end Job

theorem lookup_of_forall_eq {κ α : Type} [DecidableEq κ] {f : κ → α} {l : List (κ × α)}
    (h : ∀ e ∈ l, e.2 = f e.1) {k : κ} (hk : k ∈ l.map Prod.fst) : l.lookup k = some (f k) := by
  induction l with
  | nil => exact absurd hk List.not_mem_nil
  | cons e rest ih =>
    obtain ⟨k', a⟩ := e
    obtain ⟨ha, hrest⟩ := List.forall_mem_cons.mp h
    by_cases hkk : k = k'
    · subst hkk
      simpa using ha
    · have hbeq : (k == k') = false := by simpa using hkk
      rw [List.lookup_cons, hbeq]
      exact ih hrest ((List.mem_cons.mp hk).resolve_left hkk)

namespace Parallel
variable {g : CallGraph} {rules : Rules} {p p' : Parallel}

structure Sound (g : CallGraph) (rules : Rules) (p : Parallel) : Prop where
  cache : p.cache.Sound g
  jobs : ∀ j ∈ p.jobs, j.Sound g rules p.cache
  ids : (p.jobs.flatMap Job.ids).Perm g.bodies
  stopped : ∀ j ∈ p.jobs, j.activity.isStopped = true → p.cancelled = true

theorem sound_start {shares : List (List RoutineId)} (h : shares.flatten.Perm g.bodies) :
    (start shares).Sound g rules where
  cache := SummaryCache.sound_empty g
  jobs := by
    intro j hj
    obtain ⟨share, _, rfl⟩ := List.mem_map.mp hj
    exact ⟨rfl, fun _ he => absurd he List.not_mem_nil, fun _ he => absurd he List.not_mem_nil⟩
  ids := by
    have hids : (start shares).jobs.flatMap Job.ids = shares.flatten := by
      simp [start, Job.ids, Activity.routine?, List.flatMap_map]
    rwa [hids]
  stopped := by
    intro j hj hstop
    obtain ⟨share, _, rfl⟩ := List.mem_map.mp hj
    exact absurd hstop Bool.false_ne_true

theorem Step.sound (hg : g.Acyclic) (hp : p.Sound g rules) (h : Step g rules p p') :
    p'.Sound g rules := by
  cases h with
  | @job cache cache' cancelled before after j j' hj =>
    have hmove := Job.step_moves hj
    have hmem : j ∈ before ++ j :: after := by simp
    have hids : ∀ id ∈ j.ids, id ∈ g.bodies := fun id hid =>
      hp.ids.subset (List.mem_flatMap.mpr ⟨j, hmem, hid⟩)
    obtain ⟨hsound, hjob⟩ := hmove.sound hg hp.cache hids (hp.jobs j hmem)
    refine ⟨hsound, fun k hk => ?_, ?_, fun k hk hstop => ?_⟩
    · rcases List.mem_append.mp hk with hk | hk
      · exact (hp.jobs k (List.mem_append_left _ hk)).mono hmove.grows
      · rcases List.mem_cons.mp hk with rfl | hk
        · exact hjob
        · exact (hp.jobs k (List.mem_append_right _ (.tail _ hk))).mono hmove.grows
    · refine List.Perm.trans ?_ hp.ids
      simp only [List.flatMap_append, List.flatMap_cons]
      exact (hmove.ids.append_right _).append_left _
    · rcases List.mem_append.mp hk with hk | hk
      · exact hp.stopped k (List.mem_append_left _ hk) hstop
      · rcases List.mem_cons.mp hk with rfl | hk
        · exact hmove.stopped hstop
        · exact hp.stopped k (List.mem_append_right _ (.tail _ hk)) hstop
  | cancel => exact ⟨hp.cache, hp.jobs, hp.ids, fun _ _ _ => rfl⟩

theorem Reaches.sound (hg : g.Acyclic) (hp : p.Sound g rules) (h : Reaches g rules p p') :
    p'.Sound g rules := by
  induction h with
  | refl => exact hp
  | tail _ hstep ih => exact hstep.sound hg ih

section Done
variable (hp : p.Sound g rules) (hdone : p.jobs.all Job.isDone = true)
include hp hdone

theorem ids_of_done : (p.jobs.flatMap fun j => j.finished.map Prod.fst).Perm g.bodies := by
  refine List.Perm.trans (.of_eq ?_) hp.ids
  apply List.flatMap_congr
  intro j hj
  have hj := List.all_eq_true.mp hdone j hj
  obtain ⟨todo, marks, activity, finished⟩ := j
  cases activity <;> simp_all [Job.isDone, Job.ids, Activity.isIdle, Activity.routine?]

theorem report?_of_done {id : RoutineId} (hid : id ∈ g.bodies) :
    p.report? id = some (g.expandedReport rules id) := by
  apply lookup_of_forall_eq
  · intro e he
    obtain ⟨j, hj, hmem⟩ := List.mem_flatMap.mp he
    exact (hp.jobs j hj).reports e hmem
  · rw [List.map_flatMap]
    exact (ids_of_done hp hdone).mem_iff.mpr hid

theorem reports_of_done : p.reports g = some (g.bodies.map (g.expandedReport rules)) := by
  have hall : ∀ ids ⊆ g.bodies,
      ids.mapM p.report? = some (ids.map (g.expandedReport rules)) := by
    intro ids hsub
    induction ids with
    | nil => rfl
    | cons id rest ih =>
      obtain ⟨hid, hrest⟩ := List.cons_subset.mp hsub
      simp [List.mapM_cons, report?_of_done hp hdone hid, ih hrest]
  exact hall g.bodies (List.Subset.refl _)

/-- In the end the cache holds what routines with a body call, directly or through others. -/
theorem contains_of_done (id : RoutineId) :
    p.cache.contains id = true ↔ ∃ b ∈ g.bodies, Relation.TransGen g.Calls b id := by
  refine ⟨hp.cache.called id, ?_⟩
  rintro ⟨b, hb, hr⟩
  induction hr with
  | single hcall =>
    obtain ⟨j, hj, hmem⟩ := List.mem_flatMap.mp ((ids_of_done hp hdone).mem_iff.mpr hb)
    obtain ⟨e, he, rfl⟩ := List.mem_map.mp hmem
    exact (hp.jobs j hj).callees e he _ hcall
  | tail _ hcall ih => exact hp.cache.closed _ _ ih hcall

end Done

/-- All that is left of the order of steps: the outcome, which depends on nothing but the graph. -/
theorem Sound.outcome {reports : List Report} {size : Nat} (hp : p.Sound g rules)
    (hreports : reports = g.bodies.map (g.expandedReport rules))
    (hsize : p.jobs.all Job.isDone = true → p.cache.size = size) :
    match p.outcome g with
    | none => ∃ j ∈ p.jobs, (j.step g rules p.cancelled p.cache).isSome = true
    | some (.error f) => f = .cancelled ∧ p.cancelled = true
    | some (.ok answer) => p.reports g = some reports ∧
        answer = ⟨Report.sort reports.flatten, g.bodies.length, size⟩ := by
  unfold Parallel.outcome
  by_cases hstop : p.jobs.any (·.activity.isStopped) = true
  · obtain ⟨j, hj, hstopped⟩ := List.any_eq_true.mp hstop
    simpa [hstop] using hp.stopped j hj hstopped
  · by_cases hdone : p.jobs.all Job.isDone = true
    · have hall := reports_of_done hp hdone
      simp only [hstop, hdone, hall, if_true, Option.map_some]
      exact ⟨by rw [hreports], by rw [hreports, hsize hdone]⟩
    · simp only [hstop, hdone]
      obtain ⟨j, hj, hbusy⟩ := by simpa using hdone
      refine ⟨j, hj, j.step_isSome ?_ (by simpa using hbusy) _ _⟩
      simpa using fun h => hstop (List.any_eq_true.mpr ⟨j, hj, h⟩)

/-- On a graph without cycles the schedule does not matter. Every schedule comes to an end, and as long as there is no
outcome some job can take a step. The outcome is a failure only if the token was set; otherwise it is that of the
sequential analysis, with the same report on each routine. -/
theorem interleavings_agree (g : CallGraph) (rules : Rules) (hg : g.Acyclic) :
    (WellFounded fun p' p => Step g rules p p') ∧
    ∃ reports u, checkEach g rules false {} g.bodies = (.ok reports, u) ∧
      analyze g rules false =
        .ok ⟨Report.sort reports.flatten, g.bodies.length, u.cache.size⟩ ∧
      ∀ shares p, shares.flatten.Perm g.bodies → Reaches g rules (start shares) p →
        match p.outcome g with
        | none => ∃ j ∈ p.jobs, (j.step g rules p.cancelled p.cache).isSome = true
        | some (.error f) => f = .cancelled ∧ p.cancelled = true
        | some (.ok answer) => p.reports g = some reports ∧
            answer = ⟨Report.sort reports.flatten, g.bodies.length, u.cache.size⟩ := by
  refine ⟨wellFounded_step g rules, ?_⟩
  obtain ⟨reports, u, done, heach, hone, hids, hreports⟩ := reaches_one_job g rules
  -- the schedule of one job is sound like any other: it has the same reports and caches the same
  have hsingle := hone.sound hg (sound_start (by simp))
  have hall : reports = g.bodies.map (g.expandedReport rules) := by
    rw [← hreports, ← hids, List.map_map]
    apply List.map_congr_left
    intro e he
    exact (hsingle.jobs _ (.head _)).reports e (List.mem_reverse.mp he)
  refine ⟨reports, u, heach, by simp [analyze, checkAll_of_each heach], ?_⟩
  intro shares p hshares hreach
  have hp := hreach.sound hg (sound_start hshares)
  refine hp.outcome hall fun hdone => ?_
  apply FirstWrite.size_eq_of_contains
  intro id
  exact (contains_of_done hp hdone id).trans (contains_of_done hsingle rfl id).symm

/-- Two routines call a third, which provides in a scope of its own. Its push keeps the provides of the first routine
apart, and its provide is repeated by the second. -/
def commonCallee : CallGraph := CallGraph.ofSites
  [(none, [(.direct (.provide ⟨"U", none⟩), false), (.call 2, false),
    (.direct (.provide ⟨"U", none⟩), false)]),
   (none, [(.call 2, false), (.direct (.provide ⟨"T", none⟩), false)]),
   (some "Scope", [(.direct (.provide ⟨"T", none⟩), false)])]

/-- Both jobs summarize the common callee at the same time, and the second one publishes too late. -/
def race : Parallel :=
  (start [[0], [1, 2]]).play commonCallee {} [0, 0, 0, 1, 1, 0, 1, 0, 1, 0, 1, 0, 1, 1, 1, 1]

theorem interleavings_agree_race :
    commonCallee.Acyclic ∧ [[0], [1, 2]].flatten.Perm commonCallee.bodies ∧
    Reaches commonCallee {} (start [[0], [1, 2]]) race ∧
    race.outcome commonCallee = some (analyze commonCallee {} false) ∧
    (race.reports commonCallee).map (List.map (List.map Diagnostic.code)) =
      some [[], [9001], []] := by
  have hdescends : commonCallee.descends (List.range commonCallee.size) (fun id => 2 - id) = true := by
    decide
  have hg : commonCallee.Acyclic := CallGraph.acyclic_of_descends hdescends
  have hshares : [[0], [1, 2]].flatten.Perm commonCallee.bodies := by decide
  have hreach : Reaches commonCallee {} (start [[0], [1, 2]]) race := reaches_play _ _ _ _
  obtain ⟨_, reports, u, _, hanalyze, hall⟩ := interleavings_agree commonCallee {} hg
  obtain ⟨answer, hanswer⟩ : ∃ answer, race.outcome commonCallee = some (.ok answer) := ⟨_, rfl⟩
  have hrace := hall [[0], [1, 2]] race hshares hreach
  rw [hanswer] at hrace
  refine ⟨hg, hshares, hreach, ?_, rfl⟩
  rw [hanswer, hanalyze, hrace.2]

end Parallel

end AmbientScope
