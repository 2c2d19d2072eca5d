import AmbientScope.Flow.Analysis
import AmbientScope.Proofs.SharedCache

/-!
# Parallel analyses

The routines with a body are divided among jobs, and each job checks its share in the order it was given. A job
keeps its own marks; the cache and the cancellation token are common to all. One step of a job is one site of the
routine that it checks, or one step of the walk that summarizes the callee of that site. Steps of different jobs
may follow each other in any order, and the token may be set between any two of them.

However the steps are interleaved, every one of them lowers a weight, so no analysis goes on forever.
-/

set_option autoImplicit false

namespace AmbientScope

/-- A check under way: what was found, and the sites that are left. -/
structure Checking where
  id : RoutineId
  routine : Routine
  rest : List Site
  trace : Trace := []
  report : Report := []

/-- The check after a site, given what it contributes. -/
def Checking.take (rules : Rules) (c : Checking) (s : Site) (effects : List Effect) : Checking where
  id := c.id
  routine := c.routine
  rest := c.rest
  trace := c.trace.record s effects
  report := c.report ++ Detection.siteReport rules c.routine s c.trace false effects

/-- The check when it turned to the site in front of those that are left. -/
def Checking.before (c : Checking) (s : Site) : Checking := { c with rest := s :: c.rest }

/-- What a job is busy with. A job that meets the token set stops for good. -/
inductive Activity where
  | idle
  | checking (c : Checking)
  | summarizing (c : Checking) (s : Site) (stack : List Task)
  | stopped (id : RoutineId)

namespace Activity

def routine? : Activity → Option RoutineId
  | idle => none
  | checking c => some c.id
  | summarizing c _ _ => some c.id
  | stopped id => some id

def isIdle : Activity → Bool
  | idle => true
  | _ => false

def isStopped : Activity → Bool
  | stopped _ => true
  | _ => false

end Activity

structure Job where
  todo : List RoutineId
  marks : List RoutineId := []
  activity : Activity := .idle
  finished : List (RoutineId × Report) := []

namespace Job

def ids (j : Job) : List RoutineId :=
  j.todo ++ j.activity.routine?.toList ++ j.finished.map Prod.fst

def isDone (j : Job) : Bool := j.todo.isEmpty && j.activity.isIdle

/-- Turn to a site. A direct site and the site of a cached callee are dealt with at once. -/
def visit (rules : Rules) (cache : SummaryCache) (j : Job) (c : Checking) (s : Site) : Job :=
  match s.kind with
  | .direct action =>
    { j with activity := .checking (c.take rules s [s.effect c.routine.id action]) }
  | .inert _ => { j with activity := .checking (c.take rules s []) }
  | .external => { j with activity := .checking (c.take rules s []) }
  | .call callee =>
    match cache.get? callee with
    | some summary => { j with activity := .checking (c.take rules s (summary.splice s.hidden)) }
    | none =>
      let w := Walk.start ⟨cache, j.marks⟩ callee []
      { j with marks := w.view.marks, activity := .summarizing c s w.stack }

/-- A step of a job and the cache afterwards, unless the job is done or stopped. -/
def step (g : CallGraph) (rules : Rules) (cancelled : Bool) (cache : SummaryCache) (j : Job) :
    Option (Job × SummaryCache) :=
  match j.activity with
  | .stopped _ => none
  | .idle =>
    match j.todo with
    | [] => none
    | id :: todo =>
      if cancelled then some ({ j with todo := todo, activity := .stopped id }, cache)
      else
        match g.routine? id with
        | none => some ({ j with todo := todo, finished := (id, []) :: j.finished }, cache)
        | some r => some ({ j with todo := todo, activity := .checking ⟨id, r, r.sites, [], []⟩ }, cache)
  | .checking c =>
    match c.rest with
    | [] => some ({ j with activity := .idle, finished := (c.id, c.report) :: j.finished }, cache)
    | s :: rest => some (j.visit rules cache { c with rest := rest } s, cache)
  | .summarizing c s stack =>
    if cancelled then some ({ j with activity := .stopped c.id }, cache)
    else
      match Walk.step g ⟨⟨cache, j.marks⟩, stack⟩ with
      | .running w =>
        some ({ j with marks := w.view.marks, activity := .summarizing c s w.stack }, w.view.cache)
      | .finished summary v =>
        let c := c.take rules s (summary.splice s.hidden)
        some ({ j with marks := v.marks, activity := .checking c }, v.cache)

/-- The ways in which a job takes a step. -/
inductive Move (g : CallGraph) (rules : Rules) (cancelled : Bool) (cache : SummaryCache) :
    Job → Job → SummaryCache → Prop where
  | refuse {id todo marks finished} :
      cancelled = true →
      Move g rules cancelled cache ⟨id :: todo, marks, .idle, finished⟩
        ⟨todo, marks, .stopped id, finished⟩ cache
  | skip {id todo marks finished} :
      g.routine? id = none →
      Move g rules cancelled cache ⟨id :: todo, marks, .idle, finished⟩
        ⟨todo, marks, .idle, (id, []) :: finished⟩ cache
  | enter {id r todo marks finished} :
      g.routine? id = some r →
      Move g rules cancelled cache ⟨id :: todo, marks, .idle, finished⟩
        ⟨todo, marks, .checking ⟨id, r, r.sites, [], []⟩, finished⟩ cache
  | leave {id r trace report todo marks finished} :
      Move g rules cancelled cache ⟨todo, marks, .checking ⟨id, r, [], trace, report⟩, finished⟩
        ⟨todo, marks, .idle, (id, report) :: finished⟩ cache
  /-- The effects of the site are known without a walk. -/
  | pass {c : Checking} {s : Site} {effects todo marks finished} :
      (∀ callee, s.kind = .call callee → cache.contains callee = true) →
      effects = s.inlined c.routine.id (fun q => (cache.get? q).getD []) →
      Move g rules cancelled cache ⟨todo, marks, .checking (c.before s), finished⟩
        ⟨todo, marks, .checking (c.take rules s effects), finished⟩ cache
  | descend {c : Checking} {s : Site} {callee todo marks finished} :
      s.kind = .call callee → cache.get? callee = none →
      Move g rules cancelled cache ⟨todo, marks, .checking (c.before s), finished⟩
        ⟨todo, (View.mark ⟨cache, marks⟩ callee).marks, .summarizing c s [⟨callee, 0, []⟩], finished⟩
        cache
  | interrupt {c : Checking} {s stack todo marks finished} :
      cancelled = true →
      Move g rules cancelled cache ⟨todo, marks, .summarizing c s stack, finished⟩
        ⟨todo, marks, .stopped c.id, finished⟩ cache
  | walk {c s stack todo marks finished} {w : Walk} :
      Walk.step g ⟨⟨cache, marks⟩, stack⟩ = .running w →
      Move g rules cancelled cache ⟨todo, marks, .summarizing c s stack, finished⟩
        ⟨todo, w.view.marks, .summarizing c s w.stack, finished⟩ w.view.cache
  | arrive {c : Checking} {s : Site} {stack summary todo marks finished} {v : View} :
      Walk.step g ⟨⟨cache, marks⟩, stack⟩ = .finished summary v →
      Move g rules cancelled cache ⟨todo, marks, .summarizing c s stack, finished⟩
        ⟨todo, v.marks, .checking (c.take rules s (summary.splice s.hidden)), finished⟩ v.cache

section Moves
variable {g : CallGraph} {rules : Rules} {cancelled : Bool} {cache cache' : SummaryCache} {j j' : Job}

theorem move_visit (c : Checking) (s : Site) (todo marks : List RoutineId)
    (finished : List (RoutineId × Report)) :
    Move g rules cancelled cache ⟨todo, marks, .checking (c.before s), finished⟩
      (visit rules cache ⟨todo, marks, .checking (c.before s), finished⟩ c s) cache := by
  unfold visit
  split
  · rename_i action hk
    exact .pass (by simp [hk]) (by simp [Site.inlined, hk])
  · rename_i op hk
    exact .pass (by simp [hk]) (by simp [Site.inlined, hk])
  · rename_i hk
    exact .pass (by simp [hk]) (by simp [Site.inlined, hk])
  · rename_i callee hk
    split
    · rename_i summary hc
      have hcached := SummaryCache.contains_of_get? hc
      exact .pass (SummaryCache.contains_callee hk hcached) (by simp [Site.inlined, hk, hc])
    · rename_i hc
      exact .descend hk hc

theorem step_moves (h : j.step g rules cancelled cache = some (j', cache')) :
    Move g rules cancelled cache j j' cache' := by
  obtain ⟨todo, marks, activity, finished⟩ := j
  cases activity with
  | stopped id => simp [step] at h
  | idle =>
    cases todo with
    | nil => simp [step] at h
    | cons id todo =>
      cases hc : cancelled with
      | true =>
        obtain ⟨rfl, rfl⟩ := by simpa [step, hc] using h
        exact .refuse rfl
      | false =>
        cases hr : g.routine? id with
        | none =>
          obtain ⟨rfl, rfl⟩ := by simpa [step, hc, hr] using h
          exact .skip hr
        | some r =>
          obtain ⟨rfl, rfl⟩ := by simpa [step, hc, hr] using h
          exact .enter hr
  | checking c =>
    obtain ⟨id, r, rest, trace, report⟩ := c
    cases rest with
    | nil =>
      obtain ⟨rfl, rfl⟩ := by simpa [step] using h
      exact .leave
    | cons s rest =>
      obtain ⟨rfl, rfl⟩ := by simpa [step] using h
      exact move_visit ⟨id, r, rest, trace, report⟩ s todo marks finished
  | summarizing c s stack =>
    cases hc : cancelled with
    | true =>
      obtain ⟨rfl, rfl⟩ := by simpa [step, hc] using h
      exact .interrupt rfl
    | false =>
      cases hw : Walk.step g ⟨⟨cache, marks⟩, stack⟩ with
      | running w =>
        obtain ⟨rfl, rfl⟩ := by simpa [step, hc, hw] using h
        exact .walk hw
      | finished summary v =>
        obtain ⟨rfl, rfl⟩ := by simpa [step, hc, hw] using h
        exact .arrive hw

end Moves

end Job

/-- The jobs of an analysis and what they share. -/
structure Parallel where
  cache : SummaryCache := FirstWrite.empty
  cancelled : Bool := false
  jobs : List Job

namespace Parallel

def start (shares : List (List RoutineId)) : Parallel where
  jobs := shares.map fun share => { todo := share }

/-- Any job takes a step, or the token is set. -/
inductive Step (g : CallGraph) (rules : Rules) : Parallel → Parallel → Prop where
  | job {cache cache' : SummaryCache} {cancelled : Bool} {before after : List Job} {j j' : Job} :
      j.step g rules cancelled cache = some (j', cache') →
      Step g rules ⟨cache, cancelled, before ++ j :: after⟩ ⟨cache', cancelled, before ++ j' :: after⟩
  | cancel {cache : SummaryCache} {jobs : List Job} :
      Step g rules ⟨cache, false, jobs⟩ ⟨cache, true, jobs⟩

abbrev Reaches (g : CallGraph) (rules : Rules) : Parallel → Parallel → Prop :=
  Relation.ReflTransGen (Step g rules)

/-- The schedule in which jobs take steps in a given order; a job that cannot take its step is passed over. -/
def play (g : CallGraph) (rules : Rules) (p : Parallel) : List Nat → Parallel
  | [] => p
  | i :: rest =>
    match p.jobs[i]? with
    | none => play g rules p rest
    | some j =>
      match j.step g rules p.cancelled p.cache with
      | none => play g rules p rest
      | some (j', cache) => play g rules { p with cache := cache, jobs := p.jobs.set i j' } rest

theorem step_set {g : CallGraph} {rules : Rules} {p : Parallel} {i : Nat} {j j' : Job}
    {cache : SummaryCache} (hi : p.jobs[i]? = some j)
    (hj : j.step g rules p.cancelled p.cache = some (j', cache)) :
    Step g rules p { p with cache := cache, jobs := p.jobs.set i j' } := by
  obtain ⟨hlt, rfl⟩ := List.getElem?_eq_some_iff.mp hi
  have hset : p.jobs.set i j' = p.jobs.take i ++ j' :: p.jobs.drop (i + 1) := by
    rw [List.set_eq_take_append_cons_drop, if_pos hlt]
  have hstep := @Step.job g rules p.cache cache p.cancelled (p.jobs.take i)
    (p.jobs.drop (i + 1)) _ _ hj
  rwa [List.getElem_cons_drop, List.take_append_drop, ← hset] at hstep

theorem reaches_play (g : CallGraph) (rules : Rules) (p : Parallel) (order : List Nat) :
    Reaches g rules p (p.play g rules order) := by
  induction order generalizing p with
  | nil => exact .refl
  | cons i rest ih =>
    unfold play
    split
    · exact ih p
    · rename_i j hi
      split
      · exact ih p
      · rename_i j' cache hj
        exact (ih _).head (step_set hi hj)

def report? (p : Parallel) (id : RoutineId) : Option Report :=
  (p.jobs.flatMap Job.finished).lookup id

/-- The reports on the routines with a body, in the order of the graph. -/
def reports (g : CallGraph) (p : Parallel) : Option (List Report) := g.bodies.mapM p.report?

/-- What the analysis answers: nothing as long as jobs are under way, a failure if one of them was stopped. -/
def outcome (g : CallGraph) (p : Parallel) : Option (Except Failure AnalysisResult) :=
  if p.jobs.any (·.activity.isStopped) then some (.error .cancelled)
  else if p.jobs.all Job.isDone then
    (p.reports g).map fun reports =>
      let report : Report := reports.flatten
      .ok { report := report.sort, checked := g.bodies.length, cached := p.cache.size }
  else none

end Parallel

namespace Walk
variable {g : CallGraph}

/-- A walk of one job never gets longer by what other jobs publish. -/
theorem potential_of_grows {c c' : SummaryCache} (h : c.Grows c') (marks : List RoutineId)
    (stack : List Task) : potential g ⟨⟨c', marks⟩, stack⟩ ≤ potential g ⟨⟨c, marks⟩, stack⟩ := by
  apply Nat.add_le_add_right
  apply View.unvisitedSites_mono
  intro id hid
  obtain ⟨hcache, hmark⟩ := View.state_eq_unvisited_iff.mp hid
  refine View.state_eq_unvisited_iff.mpr ⟨?_, hmark⟩
  rw [SummaryCache.get?_eq_none_iff] at hcache ⊢
  exact fun hc => hcache (h id hc)

end Walk

/-- One step to turn to a site, one for the end of its walk, and the walk itself. -/
def CallGraph.siteWeight (g : CallGraph) : Nat := Walk.bound g + 2

def Checking.weight (g : CallGraph) (c : Checking) : Nat := c.rest.length * g.siteWeight + 1

theorem Checking.weight_before (g : CallGraph) (c : Checking) (s : Site) :
    (c.before s).weight g = c.weight g + g.siteWeight := by
  simp only [weight, before, List.length_cons, Nat.succ_mul]
  omega

def Activity.weight (g : CallGraph) (v : View) : Activity → Nat
  | .idle => 0
  | .checking c => c.weight g
  | .summarizing c _ stack => c.weight g + 1 + Walk.potential g ⟨v, stack⟩
  | .stopped _ => 0

namespace Job
variable {g : CallGraph} {rules : Rules} {cancelled : Bool} {cache cache' : SummaryCache} {j j' : Job}

def weight (g : CallGraph) (cache : SummaryCache) (j : Job) : Nat :=
  (j.todo.map fun id => (g.sites id).length * g.siteWeight + 2).sum +
    j.activity.weight g ⟨cache, j.marks⟩

theorem weight_of_grows (h : cache.Grows cache') (j : Job) : j.weight g cache' ≤ j.weight g cache := by
  apply Nat.add_le_add_left
  cases j.activity with
  | summarizing c s stack => exact Nat.add_le_add_left (Walk.potential_of_grows h _ _) _
  | _ => exact Nat.le_refl _

theorem view_mark (cache : SummaryCache) (marks : List RoutineId) (id : RoutineId) :
    (⟨cache, (View.mark ⟨cache, marks⟩ id).marks⟩ : View) = View.mark ⟨cache, marks⟩ id := by
  unfold View.mark
  split <;> rfl

theorem Move.grows (h : Move g rules cancelled cache j j' cache') : cache.Grows cache' := by
  cases h with
  | @walk c s stack todo marks finished w hw =>
    have hgrow := Walk.step_grows (g := g) ⟨⟨cache, marks⟩, stack⟩
    rwa [hw] at hgrow
  | @arrive c s stack summary todo marks finished v hw =>
    have hgrow := Walk.step_grows (g := g) ⟨⟨cache, marks⟩, stack⟩
    rwa [hw] at hgrow
  | _ => exact .refl cache

theorem Move.weight_lt (h : Move g rules cancelled cache j j' cache') :
    j'.weight g cache' < j.weight g cache := by
  cases h with
  | refuse _ => simp [weight, Activity.weight]
  | skip _ => simp [weight, Activity.weight]
  | @enter id r todo marks finished hr =>
    have hsites : g.sites id = r.sites := by simp [CallGraph.sites, hr]
    simp only [weight, Activity.weight, Checking.weight, List.map_cons, List.sum_cons, hsites]
    omega
  | leave => simp [weight, Activity.weight, Checking.weight]
  | pass _ _ =>
    have hpos : 0 < g.siteWeight := Nat.succ_pos _
    simp only [weight, Activity.weight, Checking.weight_before]
    simp only [Checking.weight, Checking.take]
    omega
  | @descend c s callee todo marks finished _ _ =>
    have hwalk := Walk.potential_start_le g ⟨cache, marks⟩ callee
    simp only [weight, Activity.weight, Checking.weight_before, view_mark]
    simp only [Walk.start, CallGraph.siteWeight] at hwalk ⊢
    omega
  | interrupt _ => simp [weight, Activity.weight, Checking.weight]
  | walk hw =>
    have hlt := Walk.potential_step hw
    simpa [weight, Activity.weight] using hlt
  | arrive _ =>
    simp only [weight, Activity.weight, Checking.weight, Checking.take]
    omega

end Job

namespace Parallel
variable {g : CallGraph} {rules : Rules} {p p' : Parallel}

/-- The weight of all jobs, and one for the token as long as it can be set. -/
def weight (g : CallGraph) (p : Parallel) : Nat :=
  (p.jobs.map (Job.weight g p.cache)).sum + if p.cancelled then 0 else 1

theorem sum_weight_le {cache cache' : SummaryCache} (h : cache.Grows cache') (jobs : List Job) :
    (jobs.map (Job.weight g cache')).sum ≤ (jobs.map (Job.weight g cache)).sum := by
  induction jobs with
  | nil => exact Nat.le_refl _
  | cons j rest ih => exact Nat.add_le_add (Job.weight_of_grows h j) ih

theorem Step.weight_lt (h : Step g rules p p') : p'.weight g < p.weight g := by
  cases h with
  | @job cache cache' cancelled before after j j' hj =>
    have hmove := Job.step_moves hj
    have hlt := hmove.weight_lt
    have hbefore := sum_weight_le (g := g) hmove.grows before
    have hafter := sum_weight_le (g := g) hmove.grows after
    simp only [weight, List.map_append, List.map_cons, List.sum_append, List.sum_cons]
    omega
  | cancel => simp [weight]

theorem wellFounded_step (g : CallGraph) (rules : Rules) :
    WellFounded fun p' p => Step g rules p p' :=
  Subrelation.wf Step.weight_lt (measure (weight g)).wf

end Parallel

end AmbientScope
