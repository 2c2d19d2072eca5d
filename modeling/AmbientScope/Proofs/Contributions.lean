import AmbientScope.Flow.Detection

/-!
# Contributions and their report

A check has two parts that do not depend on each other: what each site contributes, which takes the cache and the
summaries of callees, and what is reported about these contributions, which takes neither.
-/

set_option autoImplicit false

namespace AmbientScope

theorem summarize_succeeds (g : CallGraph) (v : View) (id : RoutineId) :
    ∃ s u, summarize g false v id = (.ok s, u) := by
  unfold summarize
  cases v.cache.get? id with
  | some s => exact ⟨s, v, rfl⟩
  | none => exact ⟨_, _, rfl⟩

namespace Detection

/-- What sites contribute, one after the other. -/
def contributions (g : CallGraph) (cancelled : Bool) (v : View) (id : RoutineId) :
    List Site → Except Failure (List (Site × List Effect)) × View
  | [] => (.ok [], v)
  | s :: rest =>
    match contribution g cancelled v id s with
    | (.error f, v) => (.error f, v)
    | (.ok effects, v) =>
      match contributions g cancelled v id rest with
      | (.error f, v) => (.error f, v)
      | (.ok all, v) => (.ok ((s, effects) :: all), v)

theorem contribution_succeeds (g : CallGraph) (v : View) (id : RoutineId) (s : Site) :
    ∃ effects u, contribution g false v id s = (.ok effects, u) := by
  unfold contribution
  cases s.kind with
  | direct action => exact ⟨_, v, rfl⟩
  | inert op => exact ⟨_, v, rfl⟩
  | external => exact ⟨_, v, rfl⟩
  | call callee =>
    obtain ⟨summary, u, hsum⟩ := summarize_succeeds g v callee
    exact ⟨summary.splice s.hidden, u, by simp only [hsum]⟩

theorem contributions_succeed (g : CallGraph) (v : View) (id : RoutineId) (sites : List Site) :
    ∃ all u, contributions g false v id sites = (.ok all, u) ∧ all.map Prod.fst = sites := by
  induction sites generalizing v with
  | nil => exact ⟨[], v, rfl, rfl⟩
  | cons s rest ih =>
    obtain ⟨effects, u, hs⟩ := contribution_succeeds g v id s
    obtain ⟨all, w, hrest, hsites⟩ := ih u
    exact ⟨(s, effects) :: all, w, by simp only [contributions, hs, hrest], by simp [hsites]⟩

/-- What a site contributes: a direct site its own effect, hidden where the site is, and a call what a worker summarizes
its callee as, hidden where the call is or the effect itself. -/
inductive Contributes (g : CallGraph) (id : RoutineId) (s : Site) : List Effect → Prop
  | direct {action : Action} (h : s.kind = .direct action) :
      Contributes g id s [⟨action, s.hidden, .site id s.index⟩]
  | call {callee : RoutineId} {v u : View} {summary : Summary} (h : s.kind = .call callee)
      (hsummary : summarize g false v callee = (.ok summary, u)) :
      Contributes g id s (summary.map fun e => ⟨e.action, e.hidden || s.hidden, e.origin⟩)
  | silent (h : (∃ op, s.kind = .inert op) ∨ s.kind = .external) : Contributes g id s []

theorem contributes_of_contribution {g : CallGraph} {v u : View} {id : RoutineId} {s : Site}
    {effects : List Effect} (h : contribution g false v id s = (.ok effects, u)) :
    Contributes g id s effects := by
  unfold contribution at h
  cases hk : s.kind with
  | direct action =>
    simp only [hk, Prod.mk.injEq, Except.ok.injEq] at h
    exact h.1 ▸ .direct hk
  | inert op =>
    simp only [hk, Prod.mk.injEq, Except.ok.injEq] at h
    exact h.1 ▸ .silent (.inl ⟨op, hk⟩)
  | external =>
    simp only [hk, Prod.mk.injEq, Except.ok.injEq] at h
    exact h.1 ▸ .silent (.inr hk)
  | call callee =>
    obtain ⟨summary, w, hsummary⟩ := summarize_succeeds g v callee
    simp only [hk, hsummary, Prod.mk.injEq, Except.ok.injEq] at h
    exact h.1 ▸ .call hk hsummary

theorem contributes_of_mem {g : CallGraph} {id : RoutineId} {sites : List Site} {v u : View}
    {all : List (Site × List Effect)} (h : contributions g false v id sites = (.ok all, u)) :
    ∀ c ∈ all, Contributes g id c.1 c.2 := by
  induction sites generalizing v all with
  | nil =>
    obtain rfl : [] = all := Except.ok.inj (congrArg Prod.fst h)
    exact fun c hc => absurd hc List.not_mem_nil
  | cons s rest ih =>
    obtain ⟨effects, w, hs⟩ := contribution_succeeds g v id s
    obtain ⟨others, x, hrest, _⟩ := contributions_succeed g w id rest
    simp only [contributions, hs, hrest, Prod.mk.injEq, Except.ok.injEq] at h
    obtain ⟨rfl, rfl⟩ := h
    exact List.forall_mem_cons.mpr ⟨contributes_of_contribution hs, ih hrest⟩

/-- What is reported about contributions. -/
def reportOf (rules : Rules) (r : Routine) (t : Trace) : List (Site × List Effect) → Report
  | [] => []
  | (s, effects) :: rest =>
    siteReport rules r s t false effects ++ reportOf rules r (t.record s effects) rest

theorem checkSites_eq (g : CallGraph) (rules : Rules) (cancelled : Bool) (r : Routine) (t : Trace)
    (report : Report) (v : View) (sites : List Site) :
    checkSites g rules cancelled r t report v sites =
      match contributions g cancelled v r.id sites with
      | (.error f, v) => (.error f, v)
      | (.ok all, v) => (.ok (report ++ reportOf rules r t all), v) := by
  induction sites generalizing t report v with
  | nil => simp [checkSites, contributions, reportOf]
  | cons s rest ih =>
    rw [checkSites, contributions]
    cases hs : contribution g cancelled v r.id s with
    | mk result u =>
      cases result with
      | error f => rfl
      | ok effects =>
        simp only [ih]
        cases hrest : contributions g cancelled u r.id rest with
        | mk result w => cases result <;> simp [reportOf]

end Detection

theorem check_of_contributions {g : CallGraph} {rules : Rules} {v u : View} {id : RoutineId}
    {r : Routine} {all : List (Site × List Effect)} (hr : g.routine? id = some r)
    (h : Detection.contributions g false v r.id r.sites = (.ok all, u)) :
    check g rules false v id = (.ok (Detection.reportOf rules r [] all), u) := by
  simp [check, hr, Detection.checkSites_eq, h]

end AmbientScope
