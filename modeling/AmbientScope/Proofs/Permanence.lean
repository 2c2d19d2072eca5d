import AmbientScope.Proofs.Unrolling

/-!
# Results that stay

Once a routine has a summary, no request takes it away or replaces it, whichever worker asks and whatever is published.
On graphs with cycles the summaries themselves depend on the order of requests; that what has been answered once is
answered again rests on the first publication alone. A mark that is left between requests belongs to a worker that has
been cancelled, and nothing is ever lost by it.
-/

set_option autoImplicit false

namespace AmbientScope

/-- Whatever the first cache holds, the second one holds as well. -/
def SummaryCache.Keeps (c c' : SummaryCache) : Prop :=
  ∀ id s, c.get? id = some s → c'.get? id = some s

namespace SummaryCache
variable {c c' c'' : SummaryCache}

theorem Keeps.refl (c : SummaryCache) : c.Keeps c := fun _ _ h => h

theorem Keeps.trans (h : c.Keeps c') (h' : c'.Keeps c'') : c.Keeps c'' :=
  fun id s hs => h' id s (h id s hs)

theorem keeps_insert (c : SummaryCache) (id : RoutineId) (s : Summary) :
    Keeps c (c.insert id s) := by
  intro q kept hq
  rw [FirstWrite.get?_insert]
  split
  · rename_i he
    subst he
    simp [hq]
  · exact hq

end SummaryCache

namespace Nested
variable {g : CallGraph}

theorem start_keeps (v : View) (id : RoutineId) :
    SummaryCache.Keeps (effects g (v.mark id) id (g.sites id)).2 (start g v id).2.cache := by
  rw [start_cache]
  exact SummaryCache.keeps_insert _ id _

theorem effects_keeps (v : View) (id : RoutineId) (sites : List Site) :
    v.cache.Keeps (effects g v id sites).2 := by
  induction v, id, sites using effects_induction (g := g) with
  | nil v id =>
    rw [effects_nil]
    exact .refl _
  | direct v id s rest action hk ih => rwa [effects_direct g v id rest hk]
  | silent v id s rest hk ih => rwa [effects_silent g v id rest hk]
  | cached v id s rest callee summary hk hc ih => rwa [effects_cached g v id rest hk hc]
  | cut v id s rest callee hk hc hm ih => rwa [effects_cut g v id rest hk hc hm]
  | started v id s rest callee hk hc hm ihBody ihRest =>
    rw [effects_started g v id rest hk hc hm]
    rw [View.mark_cache] at ihBody
    exact (ihBody.trans (start_keeps v callee)).trans ihRest

end Nested

section Summarize
variable {g : CallGraph} {cancelled : Bool} {v u : View} {id : RoutineId} {s : Summary}

/-- A summary in the cache is answered, even to a worker that is cancelled. -/
theorem summarize_of_cached (h : v.cache.get? id = some s) :
    summarize g cancelled v id = (.ok s, v) := by
  simp [summarize, h]

theorem summarize_keeps (g : CallGraph) (v : View) (id : RoutineId) :
    v.cache.Keeps (summarize g false v id).2.cache := by
  cases hc : v.cache.get? id with
  | some s =>
    rw [summarize_of_cached hc]
    exact .refl _
  | none =>
    have hbody := Nested.effects_keeps (g := g) (v.mark id) id (g.sites id)
    rw [View.mark_cache] at hbody
    rw [summarize_of_uncached hc]
    exact hbody.trans (Nested.start_keeps v id)

theorem get?_kept (g : CallGraph) (id : RoutineId) (s : Summary) :
    SummaryCache.Kept g fun c => c.get? id = some s :=
  fun v root h => summarize_keeps g v root id s h

/-- What is answered is in the cache from then on. -/
theorem cached_of_summarize (h : summarize g cancelled v id = (.ok s, u)) :
    u.cache.get? id = some s := by
  cases hc : v.cache.get? id with
  | some kept =>
    rw [summarize_of_cached hc] at h
    simp only [Prod.mk.injEq, Except.ok.injEq] at h
    obtain ⟨rfl, rfl⟩ := h
    exact hc
  | none =>
    cases cancelled with
    | true => simp [summarize, hc] at h
    | false =>
      rw [summarize_of_uncached hc] at h
      simp only [Prod.mk.injEq, Except.ok.injEq] at h
      obtain ⟨rfl, rfl⟩ := h
      exact Nested.get?_close ..

/-- A worker without marks has none after it has summarized a routine. -/
theorem summarize_unmarked (g : CallGraph) (id : RoutineId) (h : v.marks = []) :
    (summarize g false v id).2.marks = [] := by
  cases hc : v.cache.get? id with
  | some s =>
    rw [summarize_of_cached hc]
    exact h
  | none =>
    have hnew : id ∉ v.marks := by simp [h]
    rw [summarize_of_uncached hc, Nested.start_marks hnew, h]

end Summarize

namespace Detection
variable {g : CallGraph} {v u : View} {id : RoutineId}

theorem contributions_keeps (g : CallGraph) (v : View) (id : RoutineId) (sites : List Site) :
    v.cache.Keeps (contributions g false v id sites).2.cache := by
  intro q kept hq
  exact (get?_kept g q kept).contributions id sites hq

/-- A site contributes the same once more, and then no summary is computed. -/
theorem contribution_again {s : Site} {effects : List Effect}
    (h : contribution g false v id s = (.ok effects, u)) {w : View}
    (hw : u.cache.Keeps w.cache) : contribution g false w id s = (.ok effects, w) := by
  unfold contribution at h ⊢
  cases hk : s.kind with
  | call callee =>
    obtain ⟨summary, x, hsum⟩ := summarize_succeeds g v callee
    have hcached := cached_of_summarize hsum
    simp only [hk, hsum, Prod.mk.injEq] at h
    obtain ⟨heffects, rfl⟩ := h
    simp only [summarize_of_cached (hw callee summary hcached), heffects]
  | _ =>
    simp only [hk, Prod.mk.injEq] at h ⊢
    exact ⟨h.1, trivial⟩

theorem contributions_again {sites : List Site} {all : List (Site × List Effect)}
    (h : contributions g false v id sites = (.ok all, u)) {w : View}
    (hw : u.cache.Keeps w.cache) : contributions g false w id sites = (.ok all, w) := by
  induction sites generalizing v all with
  | nil =>
    simp only [contributions, Prod.mk.injEq] at h ⊢
    exact ⟨h.1, trivial⟩
  | cons s rest ih =>
    obtain ⟨effects, x, hs⟩ := contribution_succeeds g v id s
    obtain ⟨others, y, hrest, _⟩ := contributions_succeed g x id rest
    simp only [contributions, hs, hrest, Prod.mk.injEq, Except.ok.injEq] at h
    obtain ⟨rfl, rfl⟩ := h
    have hkeep := contributions_keeps g x id rest
    rw [hrest] at hkeep
    have hfirst := contribution_again hs (hkeep.trans hw)
    simp only [contributions, hfirst, ih hrest]

theorem contribution_unmarked (g : CallGraph) (id : RoutineId) (s : Site) (h : v.marks = []) :
    (contribution g false v id s).2.marks = [] := by
  unfold contribution
  split
  · exact h
  · rename_i callee _
    obtain ⟨summary, u, hsum⟩ := summarize_succeeds g v callee
    have hafter := summarize_unmarked g callee h
    rw [hsum] at hafter ⊢
    exact hafter
  · exact h
  · exact h

theorem contributions_unmarked (g : CallGraph) (id : RoutineId) (sites : List Site)
    (h : v.marks = []) : (contributions g false v id sites).2.marks = [] := by
  induction sites generalizing v with
  | nil => exact h
  | cons s rest ih =>
    obtain ⟨effects, u, hs⟩ := contribution_succeeds g v id s
    obtain ⟨all, w, hrest, _⟩ := contributions_succeed g u id rest
    have hu := contribution_unmarked g id s h
    rw [hs] at hu
    have hw := ih hu
    rw [hrest] at hw
    simpa only [contributions, hs, hrest] using hw

end Detection

section Check
variable {g : CallGraph} {rules : Rules} {cancelled : Bool} {v u : View} {id : RoutineId}

theorem check_cancelled (g : CallGraph) (rules : Rules) (v : View) (id : RoutineId) :
    check g rules true v id = (.error .cancelled, v) := by
  simp [check]

theorem check_succeeds (g : CallGraph) (rules : Rules) (v : View) (id : RoutineId) :
    ∃ report u, check g rules false v id = (.ok report, u) := by
  cases hr : g.routine? id with
  | none => exact ⟨[], v, by simp [check, hr]⟩
  | some r =>
    obtain ⟨all, u, hall, _⟩ := Detection.contributions_succeed g v r.id r.sites
    exact ⟨_, u, check_of_contributions hr hall⟩

theorem check_keeps (g : CallGraph) (rules : Rules) (v : View) (id : RoutineId) :
    v.cache.Keeps (check g rules false v id).2.cache := by
  intro q kept hq
  exact (get?_kept g q kept).check rules id hq

/-- A check that has succeeded once gives the same report as long as the cache keeps what it held then. -/
theorem check_again {report : Report} (h : check g rules cancelled v id = (.ok report, u))
    {w : View} (hw : u.cache.Keeps w.cache) : check g rules false w id = (.ok report, w) := by
  cases cancelled with
  | true => simp [check_cancelled] at h
  | false =>
    cases hr : g.routine? id with
    | none =>
      simp only [check, hr, Bool.false_eq_true, if_false, Prod.mk.injEq] at h ⊢
      exact ⟨h.1, trivial⟩
    | some r =>
      obtain ⟨all, x, hall, _⟩ := Detection.contributions_succeed g v r.id r.sites
      rw [check_of_contributions hr hall] at h
      simp only [Prod.mk.injEq] at h
      obtain ⟨hreport, rfl⟩ := h
      rw [check_of_contributions hr (Detection.contributions_again hall hw), hreport]

theorem check_unmarked (g : CallGraph) (rules : Rules) (id : RoutineId) (h : v.marks = []) :
    (check g rules false v id).2.marks = [] := by
  cases hr : g.routine? id with
  | none => simpa [check, hr] using h
  | some r =>
    obtain ⟨all, u, hall, _⟩ := Detection.contributions_succeed g v r.id r.sites
    have hu := Detection.contributions_unmarked g r.id r.sites h
    rw [hall] at hu
    rwa [check_of_contributions hr hall]

end Check

/-- The worker that a request is made to. -/
def Request.worker? : Request → Option Nat
  | .summarize i _ => some i
  | .check i _ => some i
  | .state i _ => some i
  | .checkCancelled i => some i
  | _ => none

namespace Session
variable {s : Session}

theorem perform_keeps (s : Session) (q : Request) : s.cache.Keeps (s.perform q).2.cache := by
  cases q with
  | summarize i id =>
    rw [perform_summarize, withView_cache]
    cases s.isCancelled i with
    | false => exact summarize_keeps s.graph (s.view i) id
    | true =>
      rw [summarize_cancelled_cache]
      exact .refl _
  | check i id =>
    rw [perform_check, withView_cache]
    cases s.isCancelled i with
    | false => exact check_keeps s.graph s.rules (s.view i) id
    | true =>
      rw [check_cancelled]
      exact .refl _
  | publish id summary => exact SummaryCache.keeps_insert s.cache id summary
  | _ => exact .refl _

theorem performAll_keeps (s : Session) (requests : List Request) :
    s.cache.Keeps (s.performAll requests).2.cache := by
  induction requests generalizing s with
  | nil => exact .refl _
  | cons q rest ih => exact (perform_keeps s q).trans (ih _)

theorem perform_rules (s : Session) (q : Request) : (s.perform q).2.rules = s.rules := by
  cases q with
  | summarize i id =>
    rw [perform_summarize]
    rfl
  | check i id =>
    rw [perform_check]
    rfl
  | _ => rfl

theorem performAll_rules (s : Session) (requests : List Request) :
    (s.performAll requests).2.rules = s.rules := by
  induction requests generalizing s with
  | nil => rfl
  | cons q rest ih => exact (ih _).trans (perform_rules s q)

/-! Answers -/

theorem perform_summarize_of_cached {id : RoutineId} {summary : Summary}
    (h : s.cache.get? id = some summary) (i : Nat) :
    (s.perform (.summarize i id)).1 = .summary summary := by
  have hview : (s.view i).cache.get? id = some summary := h
  simp [perform, summarize_of_cached hview]

theorem perform_publish_of_cached {id : RoutineId} {summary : Summary}
    (h : s.cache.get? id = some summary) (other : Summary) :
    (s.perform (.publish id other)).1 = .summary summary := by
  simp [perform, SummaryCache.publish, h]

theorem cached_of_perform_summarize {i : Nat} {id : RoutineId} {summary : Summary}
    (h : (s.perform (.summarize i id)).1 = .summary summary) :
    (s.perform (.summarize i id)).2.cache.get? id = some summary := by
  rw [perform_summarize, withView_cache]
  rcases hsum : summarize s.graph (s.isCancelled i) (s.view i) id with ⟨result | result, u⟩
  · simp [perform, hsum] at h
  · simp only [perform, hsum, Response.summary.injEq] at h
    exact cached_of_summarize (h ▸ hsum)

/-- Every later check of the routine fails, because its worker is cancelled, or gives the same report. -/
theorem perform_check_again {i : Nat} {id : RoutineId} {report : Report}
    (h : (s.perform (.check i id)).1 = .report report) (between : List Request) (j : Nat) :
    let s' := ((s.perform (.check i id)).2.performAll between).2
    (s'.perform (.check j id)).1 =
      if s'.isCancelled j then .failure .cancelled else .report report := by
  intro s'
  have hgraph : s'.graph = s.graph := (performAll_graph _ between).trans (perform_graph s _)
  have hrules : s'.rules = s.rules := (performAll_rules _ between).trans (perform_rules s _)
  have hkeeps : SummaryCache.Keeps _ s'.cache :=
    performAll_keeps (s.perform (.check i id)).2 between
  rw [perform_check, withView_cache] at hkeeps
  rcases hcheck : check s.graph s.rules (s.isCancelled i) (s.view i) id with ⟨result | result, u⟩
  · simp [perform, hcheck] at h
  · rw [hcheck] at hkeeps
    obtain rfl : result = report := by simpa [perform, hcheck] using h
    cases hc : s'.isCancelled j with
    | true => simp [perform, check_cancelled, hc]
    | false =>
      have hagain := check_again hcheck (w := s'.view j) hkeeps
      simp [perform, hc, hgraph, hrules, hagain]

/-- A token that is set stays set. -/
theorem perform_tokens (s : Session) (q : Request) {t : Nat} (h : s.tokens[t]? = some true) :
    (s.perform q).2.tokens[t]? = some true := by
  cases q with
  | summarize i id =>
    rw [perform_summarize]
    exact h
  | check i id =>
    rw [perform_check]
    exact h
  | cancel token =>
    have hlt := (List.getElem?_eq_some_iff.mp h).1
    by_cases he : token = t
    · subst he
      exact List.getElem?_set_self hlt
    · exact (List.getElem?_set_ne he).trans h
  | _ => exact h

theorem perform_workers_length (s : Session) (q : Request) :
    (s.perform q).2.workers.length = s.workers.length := by
  cases q with
  | summarize i id =>
    rw [perform_summarize]
    exact List.length_set
  | check i id =>
    rw [perform_check]
    exact List.length_set
  | _ => rfl

/-- A failed request is without effect on the cache and on the other workers. -/
theorem perform_of_failure {q : Request} (h : (s.perform q).1 = .failure .cancelled) :
    (s.perform q).2.cache = s.cache ∧
      ∀ j, q.worker? ≠ some j → (s.perform q).2.worker j = s.worker j := by
  have hothers (i j : Nat) (v : View) (hj : some i ≠ some j) :
      (s.withView i v).worker j = s.worker j := by
    rw [worker_withView, if_neg]
    exact fun he => hj (congrArg some he.1.symm)
  cases q with
  | summarize i id =>
    rw [perform_summarize]
    refine ⟨?_, fun j hj => hothers i j _ hj⟩
    cases hc : s.isCancelled i with
    | true => exact summarize_cancelled_cache s.graph (s.view i) id
    | false =>
      obtain ⟨summary, u, hsum⟩ := summarize_succeeds s.graph (s.view i) id
      simp [perform, hc, hsum] at h
  | check i id =>
    rw [perform_check]
    refine ⟨?_, fun j hj => hothers i j _ hj⟩
    cases hc : s.isCancelled i with
    | true =>
      rw [check_cancelled]
      rfl
    | false =>
      obtain ⟨report, u, hcheck⟩ := check_succeeds s.graph s.rules (s.view i) id
      simp [perform, hc, hcheck] at h
  | publish id summary => simp [perform] at h
  | _ => exact ⟨rfl, fun _ _ => rfl⟩

/-! Marks between requests -/

/-- Whether a request leaves a mark of a worker on a routine. -/
def Leaves (s : Session) (i : Nat) (id : RoutineId) (q : Request) : Prop :=
  q = .summarize i id ∧ s.isCancelled i = true ∧ s.cache.get? id = none

/-- A worker has marks only if it is cancelled. -/
def Clean (s : Session) : Prop := ∀ i, s.isCancelled i = false → (s.worker i).marks = []

theorem start_clean (g : CallGraph) (rules : Rules) (tokens : List Nat) :
    (start g rules tokens).Clean := (start_settled g rules tokens).unmarked

theorem summarize_cancelled_marks {g : CallGraph} {v : View} {root id : RoutineId} :
    id ∈ (summarize g true v root).2.marks ↔
      id ∈ v.marks ∨ id = root ∧ v.cache.get? root = none := by
  cases hc : v.cache.get? root with
  | some s => simp [summarize_of_cached hc]
  | none => simp [summarize, hc, or_comm]

variable {i : Nat} {id : RoutineId}

theorem marks_withView (hi : i < s.workers.length) (v : View) :
    ((s.withView i v).worker i).marks = v.marks := by
  rw [worker_withView, if_pos ⟨rfl, hi⟩]

theorem marks_withView_of_ne {j : Nat} (h : i ≠ j) (v : View) :
    ((s.withView j v).worker i).marks = (s.worker i).marks := by
  rw [worker_withView, if_neg fun he => h he.1]

/-- What is marked after a request was marked before, or the request has left the mark. -/
theorem mem_marks_perform (hs : s.Clean) (hi : i < s.workers.length) (q : Request) :
    id ∈ ((s.perform q).2.worker i).marks ↔ id ∈ (s.worker i).marks ∨ s.Leaves i id q := by
  cases q with
  | summarize j root =>
    rw [perform_summarize]
    by_cases hj : i = j
    · subst hj
      rw [marks_withView hi]
      cases hc : s.isCancelled i with
      | false =>
        have hmarks := hs i hc
        rw [summarize_unmarked s.graph root hmarks, hmarks]
        simp [Leaves, hc]
      | true =>
        have hleaves : s.Leaves i id (.summarize i root) ↔
            id = root ∧ s.cache.get? root = none := by
          constructor
          · rintro ⟨he, _, hnone⟩
            obtain rfl : root = id := (Request.summarize.inj he).2
            exact ⟨rfl, hnone⟩
          · rintro ⟨rfl, hnone⟩
            exact ⟨rfl, hc, hnone⟩
        rw [summarize_cancelled_marks, hleaves]
        rfl
    · rw [marks_withView_of_ne hj]
      simp [Leaves, Ne.symm hj]
  | check j root =>
    rw [perform_check]
    by_cases hj : i = j
    · subst hj
      rw [marks_withView hi]
      cases hc : s.isCancelled i with
      | false =>
        have hmarks := hs i hc
        rw [check_unmarked s.graph s.rules root hmarks, hmarks]
        simp [Leaves]
      | true =>
        rw [check_cancelled]
        simp [Leaves, view]
    · rw [marks_withView_of_ne hj]
      simp [Leaves]
  | _ => simp [Leaves, perform, worker]

theorem isCancelled_perform (q : Request) (h : s.isCancelled i = true) :
    (s.perform q).2.isCancelled i = true := by
  have htoken : ((s.perform q).2.worker i).token = (s.worker i).token := by
    cases q with
    | summarize j root =>
      rw [perform_summarize, worker_withView]
      split
      · rename_i he
        rw [he.1]
      · rfl
    | check j root =>
      rw [perform_check, worker_withView]
      split
      · rename_i he
        rw [he.1]
      · rfl
    | _ => rfl
  have hset : s.tokens[(s.worker i).token]? = some true := by
    cases ht : s.tokens[(s.worker i).token]? with
    | none => simp [isCancelled, ht] at h
    | some b => simpa [isCancelled, ht] using h
  simp [isCancelled, htoken, perform_tokens s q hset]

theorem Clean.perform (hs : s.Clean) (q : Request) : (s.perform q).2.Clean := by
  intro i hafter
  have hbefore : s.isCancelled i = false := by
    apply Bool.eq_false_iff.mpr
    intro hc
    simp [isCancelled_perform q hc] at hafter
  rcases Nat.lt_or_ge i s.workers.length with hi | hi
  · apply List.eq_nil_iff_forall_not_mem.mpr
    intro id hid
    rcases (mem_marks_perform hs hi q).mp hid with hold | ⟨_, hc, _⟩
    · simp [hs i hbefore] at hold
    · simp [hc] at hbefore
  · -- there is no such worker, before or after
    have hnone : (s.perform q).2.workers[i]? = none := by
      apply List.getElem?_eq_none_iff.mpr
      rwa [perform_workers_length]
    unfold worker
    rw [hnone]
    rfl

/-- The marks of a worker are those that its requests have left. -/
theorem mem_marks_performAll (hs : s.Clean) (hi : i < s.workers.length) (requests : List Request) :
    id ∈ ((s.performAll requests).2.worker i).marks ↔
      id ∈ (s.worker i).marks ∨
        ∃ before q after, requests = before ++ q :: after ∧
          (s.performAll before).2.Leaves i id q := by
  induction requests generalizing s with
  | nil => simp [performAll]
  | cons q rest ih =>
    have hlength : i < (s.perform q).2.workers.length := by rwa [perform_workers_length]
    have hrest := ih (hs.perform q) hlength
    rw [mem_marks_perform hs hi q] at hrest
    refine hrest.trans ⟨?_, ?_⟩
    · rintro ((hold | hleaves) | ⟨before, q', after, rfl, hleaves⟩)
      · exact .inl hold
      · exact .inr ⟨[], q, rest, rfl, hleaves⟩
      · exact .inr ⟨q :: before, q', after, rfl, hleaves⟩
    · rintro (hold | ⟨before, q', after, hsplit, hleaves⟩)
      · exact .inl (.inl hold)
      · cases before with
        | nil =>
          obtain ⟨rfl, rfl⟩ := List.cons.inj hsplit
          exact .inl (.inr hleaves)
        | cons first before =>
          obtain ⟨rfl, rfl⟩ := List.cons.inj hsplit
          exact .inr ⟨before, q', after, rfl, hleaves⟩

theorem performAll_clean (hs : s.Clean) (requests : List Request) :
    (s.performAll requests).2.Clean := by
  induction requests generalizing s with
  | nil => exact hs
  | cons q rest ih => exact ih (hs.perform q)

theorem mem_marks_of_start (g : CallGraph) (rules : Rules) {tokens : List Nat}
    (hi : i < tokens.length) (requests : List Request) :
    id ∈ (((start g rules tokens).performAll requests).2.worker i).marks ↔
      ∃ before after, requests = before ++ .summarize i id :: after ∧
        (((start g rules tokens).performAll before).2.isCancelled i = true ∧
          ((start g rules tokens).performAll before).2.cache.get? id = none) := by
  have hlength : i < (start g rules tokens).workers.length := by simpa [start] using hi
  have hnone : ((start g rules tokens).worker i).marks = [] := by
    simp [start, worker, List.getElem?_eq_getElem hi]
  rw [mem_marks_performAll (start_clean g rules tokens) hlength, hnone]
  constructor
  · rintro (hold | ⟨before, q, after, rfl, rfl, hleaves⟩)
    · exact absurd hold List.not_mem_nil
    · exact ⟨before, after, rfl, hleaves⟩
  · rintro ⟨before, after, rfl, hleaves⟩
    exact .inr ⟨before, _, after, rfl, rfl, hleaves⟩

theorem performAll_tokens (s : Session) (requests : List Request) {t : Nat}
    (h : s.tokens[t]? = some true) : (s.performAll requests).2.tokens[t]? = some true := by
  induction requests generalizing s with
  | nil => exact h
  | cons q rest ih => exact ih _ (perform_tokens s q h)

/-- Whatever has been requested so far, on any graph. An entry of the cache stays and is what requests for it and
publications over it are answered with, even by a cancelled worker. A summary or a report that has been answered is
answered again to every worker, except that a cancelled worker checks nothing. The marks of a worker are on the
routines for whose summary it was asked while it was cancelled and none was cached, and on no others. A
request that fails changes neither the cache nor another worker, and a token that is set stays set. -/
theorem results_permanent (g : CallGraph) (rules : Rules) (tokens : List Nat)
    (requests : List Request) :
    let s := ((start g rules tokens).performAll requests).2
    (∀ id kept, s.cache.get? id = some kept →
      (∀ later, (s.performAll later).2.cache.get? id = some kept) ∧
      (∀ i, (s.perform (.summarize i id)).1 = .summary kept) ∧
      ∀ other, (s.perform (.publish id other)).1 = .summary kept) ∧
    (∀ i id first, (s.perform (.summarize i id)).1 = .summary first → ∀ between j,
      (((s.perform (.summarize i id)).2.performAll between).2.perform (.summarize j id)).1 =
        .summary first) ∧
    (∀ i id first, (s.perform (.check i id)).1 = .report first → ∀ between j,
      let s' := ((s.perform (.check i id)).2.performAll between).2
      (s'.perform (.check j id)).1 =
        if s'.isCancelled j then .failure .cancelled else .report first) ∧
    (∀ i < tokens.length, (s.isCancelled i = false → (s.worker i).marks = []) ∧
      ∀ id, id ∈ (s.worker i).marks ↔
        ∃ before after, requests = before ++ .summarize i id :: after ∧
          (((start g rules tokens).performAll before).2.isCancelled i = true ∧
            ((start g rules tokens).performAll before).2.cache.get? id = none)) ∧
    (∀ q, (s.perform q).1 = .failure .cancelled →
      (s.perform q).2.cache = s.cache ∧
        ∀ j, q.worker? ≠ some j → (s.perform q).2.worker j = s.worker j) ∧
    ∀ t : Nat, s.tokens[t]? = some true → ∀ later, (s.performAll later).2.tokens[t]? = some true := by
  intro s
  have hclean : s.Clean := performAll_clean (start_clean g rules tokens) requests
  refine ⟨fun id kept h => ?_, fun i id first h between j => ?_, ?_, fun i hi => ?_, ?_, ?_⟩
  · exact ⟨fun later => performAll_keeps s later id kept h, perform_summarize_of_cached h,
      perform_publish_of_cached h⟩
  · have hcached := cached_of_perform_summarize h
    exact perform_summarize_of_cached (performAll_keeps _ between id first hcached) j
  · exact fun i id first h between j => perform_check_again h between j
  · exact ⟨hclean i, fun id => mem_marks_of_start g rules hi requests⟩
  · exact fun q h => perform_of_failure h
  · exact fun t h later => performAll_tokens s later h

end Session

end AmbientScope
