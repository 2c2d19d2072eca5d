import AmbientScope.Proofs.HiddenRuns
import AmbientScope.Proofs.OneJob

/-!
# Reports on hidden code

When code is hidden, the checks of a routine before and after meet the same effects at the same sites, and later ones
may be hidden. A provide that goes unreported before finds no earlier provide that is sure to run, and afterwards it
finds none either: what was sure to run afterwards was so before. So duplicates can only vanish, while a site with a
hidden effect keeps it.
-/

set_option autoImplicit false

namespace AmbientScope

namespace TraceEntry

/-- The same entry, hidden if it was hidden before. -/
def Darker (e e' : TraceEntry) : Prop := e.effect.Darker e'.effect ∧ e'.site = e.site

variable {e e' : TraceEntry} (h : e.Darker e')
include h

theorem Darker.isPush : e'.isPush = e.isPush := by
  rw [TraceEntry.isPush, h.1.action]
  rfl

/-- What is sure to run after some code was hidden was so before. -/
theorem Darker.provides {key : ValueKey} (hp : e'.provides key = true) : e.provides key = true := by
  unfold TraceEntry.provides at hp ⊢
  rw [h.1.action] at hp
  obtain ⟨hshown, hkey⟩ := Bool.and_eq_true_iff.mp hp
  have hbefore : e.effect.hidden = false := by
    by_contra hhidden
    have hafter := h.1.2 (by simpa using hhidden)
    simp [hafter] at hshown
  simp [hbefore, hkey]

end TraceEntry

namespace Detection

/-- Contributions of one site, up to flags. -/
def Darker (c c' : Site × List Effect) : Prop := c.1.Darker c'.1 ∧ Summary.Darker c.2 c'.2

def DarkerAt (x x' : Site × Effect) : Prop := x.1.Darker x'.1 ∧ x.2.Darker x'.2

theorem DarkerAt.entry {x x' : Site × Effect} (h : DarkerAt x x') : (entry x).Darker (entry x') :=
  ⟨h.2, h.1.index⟩

theorem stream_darker {all all' : List (Site × List Effect)} (h : List.Forall₂ Darker all all') :
    List.Forall₂ DarkerAt (stream all) (stream all') := by
  apply List.rel_flatMap h
  intro c c' hc
  apply List.rel_map _ hc.2
  intro e e' he
  exact ⟨hc.1, he⟩

theorem previousProvide?_darker {t t' : Trace} (h : List.Forall₂ TraceEntry.Darker t t')
    (key : ValueKey) (hprev : (t'.previousProvide? key).isSome = true) :
    (t.previousProvide? key).isSome = true := by
  induction h with
  | nil => exact hprev
  | @cons e e' t t' he _ ih =>
    -- a push ends the search in both traces, hidden or not
    by_cases hpush : e'.isPush = true
    · rw [previousProvide?_push _ hpush] at hprev
      simp at hprev
    · have hflag := Bool.eq_false_iff.mpr hpush
      have hflag' : e.isPush = false := he.isPush ▸ hflag
      by_cases hprov : e.provides key = true
      · simp [previousProvide?_provides _ hflag' hprov]
      · have hprov' : e'.provides key ≠ true := fun hp => hprov (he.provides hp)
        rw [previousProvide?_other _ hflag (Bool.eq_false_iff.mpr hprov')] at hprev
        rw [previousProvide?_other _ hflag' (Bool.eq_false_iff.mpr hprov)]
        exact ih hprev

theorem duplicateKey?_darker {t t' : Trace} (ht : List.Forall₂ TraceEntry.Darker t t')
    {x x' : Site × Effect} (hx : DarkerAt x x') {k : Nat × ValueKey}
    (hk : duplicateKey? t' x' = some k) : duplicateKey? t x = some k := by
  obtain ⟨hs, heffect⟩ := hx
  unfold duplicateKey? at hk ⊢
  by_cases hafter : x'.2.hidden = true
  · simp [hafter] at hk
  · have hbefore : x.2.hidden ≠ true := fun hh => hafter (heffect.2 hh)
    rw [if_neg hafter, heffect.action, hs.index] at hk
    rw [if_neg hbefore]
    obtain ⟨key, hkey, hfound⟩ := Option.bind_eq_some_iff.mp hk
    obtain ⟨n, hprev, rfl⟩ := Option.map_eq_some_iff.mp hfound
    have hsome := previousProvide?_darker ht key (by simp [hprev])
    obtain ⟨m, hm⟩ := Option.isSome_iff_exists.mp hsome
    simp [hkey, hm]

theorem duplicateKeys_darker {t t' : Trace} (ht : List.Forall₂ TraceEntry.Darker t t')
    {es es' : List (Site × Effect)} (hes : List.Forall₂ DarkerAt es es') :
    (duplicateKeys t' es').Sublist (duplicateKeys t es) := by
  induction hes generalizing t t' with
  | nil => exact .slnil
  | @cons x x' es es' hx _ ih =>
    refine List.Sublist.append ?_ (ih (.cons hx.entry ht))
    cases hk : duplicateKey? t' x' with
    | none => exact List.nil_sublist _
    | some k => rw [duplicateKey?_darker ht hx hk]

theorem any_hidden_of_darker {es es' : List Effect} (h : Summary.Darker es es')
    (hany : es.any Effect.hidden = true) : es'.any Effect.hidden = true := by
  obtain ⟨e, he, hhidden⟩ := List.any_eq_true.mp hany
  obtain ⟨i, hi⟩ := List.getElem?_of_mem he
  obtain ⟨e', hi', hdark⟩ := eq_some_of_rel (forall₂_getElem? h i) hi
  exact List.any_eq_true.mpr ⟨e', List.mem_of_getElem? hi', hdark.2 hhidden⟩

theorem hiddenSites_darker {all all' : List (Site × List Effect)}
    (h : List.Forall₂ Darker all all') : (hiddenSites all).Sublist (hiddenSites all') := by
  induction h with
  | nil => exact .slnil
  | @cons c c' all all' hc _ ih =>
    obtain ⟨hs, hes⟩ := hc
    have hany := any_hidden_of_darker hes
    unfold hiddenSites at ih ⊢
    rw [List.filter_cons, List.filter_cons]
    by_cases hbefore : c.2.any Effect.hidden = true
    · rw [if_pos hbefore, if_pos (hany hbefore), List.map_cons, List.map_cons, hs.index]
      exact ih.cons_cons _
    · rw [if_neg hbefore]
      split
      · exact ih.cons _
      · exact ih

section Runs
variable {g g' : CallGraph} (hg : g.Darker g')
include hg

theorem contribution_darker {v v' : View} (hv : v.Darker v') (id : RoutineId) {s s' : Site}
    (hs : s.Darker s') :
    ∃ es es' u u', contribution g false v id s = (.ok es, u) ∧
      contribution g' false v' id s' = (.ok es', u') ∧ Summary.Darker es es' ∧ u.Darker u' := by
  unfold contribution
  rw [hs.kind]
  cases s.kind with
  | direct action => exact ⟨_, _, v, v', rfl, rfl, .cons (hs.effect id action) .nil, hv⟩
  | inert op => exact ⟨_, _, v, v', rfl, rfl, .nil, hv⟩
  | external => exact ⟨_, _, v, v', rfl, rfl, .nil, hv⟩
  | call callee =>
    obtain ⟨t, t', u, u', hsum, hsum', ht, hu⟩ := summarize_darker hg hv callee
    exact ⟨_, _, u, u', by simp only [hsum], by simp only [hsum'], hs.splice ht, hu⟩

theorem contributions_darker (id : RoutineId) {sites sites' : List Site}
    (hsites : List.Forall₂ Site.Darker sites sites') {v v' : View} (hv : v.Darker v') :
    ∃ all all' u u', contributions g false v id sites = (.ok all, u) ∧
      contributions g' false v' id sites' = (.ok all', u') ∧ List.Forall₂ Darker all all' ∧
      u.Darker u' := by
  induction hsites generalizing v v' with
  | nil => exact ⟨[], [], v, v', rfl, rfl, .nil, hv⟩
  | @cons s s' rest rest' hs _ ih =>
    obtain ⟨es, es', u, u', hat, hat', hes, hu⟩ := contribution_darker hg hv id hs
    obtain ⟨all, all', w, w', hrest, hrest', hall, hw⟩ := ih hu
    refine ⟨(s, es) :: all, (s', es') :: all', w, w', ?_, ?_, .cons ⟨hs, hes⟩ hall, hw⟩
    · simp only [contributions, hat, hrest]
    · simp only [contributions, hat', hrest']

end Runs

/-- In the second graph a routine has some of the duplicates that it has in the first one, and at least the sites with
hidden effects. -/
def Moves (g g' : CallGraph) (rules : Rules) (id : RoutineId) (report report' : Report) : Prop :=
  ∃ r r' all all', g.routine? id = some r ∧ g'.routine? id = some r' ∧
    Finds rules r all report ∧ Finds rules r' all' report' ∧
    (duplicateKeys [] (stream all')).Sublist (duplicateKeys [] (stream all)) ∧
    (hiddenSites all).Sublist (hiddenSites all')

end Detection

section Runs
variable {g g' : CallGraph} {rules : Rules} (hg : g.Darker g')
include hg

open Detection in
theorem check_darker (hflow : rules.reportHiddenFlow = true) {v v' : View} (hv : v.Darker v')
    {id : RoutineId} {r : Routine} (hr : g.routine? id = some r) :
    ∃ report report' u u', check g rules false v id = (.ok report, u) ∧
      check g' rules false v' id = (.ok report', u') ∧ u.Darker u' ∧
      Moves g g' rules id report report' := by
  obtain ⟨r', hr', hsame, hsites⟩ := eq_some_of_rel (hg.routine? id) hr
  have hid : r'.id = r.id := by rw [hsame]
  obtain ⟨all, all', u, u', hall, hall', hdarker, hu⟩ := contributions_darker hg r.id hsites hv
  rw [← hid] at hall'
  obtain ⟨_, _, hown, honSites⟩ := contributions_succeed g v r.id r.sites
  obtain ⟨_, _, hown', honSites'⟩ := contributions_succeed g' v' r'.id r'.sites
  obtain ⟨rfl, rfl⟩ := by simpa [hall] using hown
  obtain ⟨rfl, rfl⟩ := by simpa [hall'] using hown'
  refine ⟨_, _, u, u', check_of_contributions hr hall, check_of_contributions hr' hall', hu, ?_⟩
  exact ⟨r, r', all, all', hr, hr', finds_reportOf hflow honSites, finds_reportOf hflow honSites',
    duplicateKeys_darker .nil (stream_darker hdarker), hiddenSites_darker hdarker⟩

theorem checkEach_darker (hflow : rules.reportHiddenFlow = true) (ids : List RoutineId)
    (hids : ∀ id ∈ ids, ∃ r, g.routine? id = some r) {v v' : View} (hv : v.Darker v') :
    ∃ reports reports' u u', checkEach g rules false v ids = (.ok reports, u) ∧
      checkEach g' rules false v' ids = (.ok reports', u') ∧ u.Darker u' ∧
      ∀ (i : Nat) (id : RoutineId), ids[i]? = some id → ∃ report report', reports[i]? = some report ∧
        reports'[i]? = some report' ∧ Detection.Moves g g' rules id report report' := by
  induction ids generalizing v v' with
  | nil => exact ⟨[], [], v, v', rfl, rfl, hv, by simp⟩
  | cons id rest ih =>
    obtain ⟨⟨r, hr⟩, hrest⟩ := List.forall_mem_cons.mp hids
    obtain ⟨report, report', u, u', hat, hat', hu, hmoves⟩ := check_darker hg hflow hv hr
    obtain ⟨reports, reports', w, w', heach, heach', hw, hall⟩ := ih hrest hu
    refine ⟨report :: reports, report' :: reports', w, w', ?_, ?_, hw, fun i q hq => ?_⟩
    · simp only [checkEach, hat, heach]
    · simp only [checkEach, hat', heach']
    · cases i with
      | zero =>
        obtain rfl : id = q := by simpa using hq
        exact ⟨report, report', rfl, rfl, hmoves⟩
      | succ i => exact hall i q (by simpa using hq)

end Runs

theorem CallGraph.Indexed.routine?_of_mem_bodies {g : CallGraph} (h : g.Indexed) {id : RoutineId}
    (hid : id ∈ g.bodies) : ∃ r, g.routine? id = some r := by
  obtain ⟨r, hr, rfl⟩ := List.mem_map.mp hid
  obtain ⟨i, hi⟩ := List.getElem?_of_mem (List.mem_filter.mp hr).1
  exact ⟨r, by rw [h.routine i r hi]; exact hi⟩

theorem View.darker_empty : View.Darker {} {} :=
  ⟨fun _ => .none, rfl⟩

/-- Putting control constructs around operations, and analyzing before and after with one worker that reports hidden
flow. Both programs are refused for the same reason, or their graphs have the same routines with the same sites, and
the same summaries, with more of the sites and effects hidden. Of each routine the duplicates that are reported after
are among those reported before, in the same order, and each site that is reported as hidden before is so after. -/
theorem hiding_moves_reports (s : Settings) (hflow : s.rules.reportHiddenFlow = true)
    {p p' : Program} (h : p.Hides p') :
    (∃ f, CallGraph.ofProgram s p = .error f ∧ CallGraph.ofProgram s p' = .error f) ∨
    ∃ g g', CallGraph.ofProgram s p = .ok g ∧ CallGraph.ofProgram s p' = .ok g' ∧ g.Darker g' ∧
      (∀ id, ∃ t t', summarizeAlone g false id = .ok t ∧ summarizeAlone g' false id = .ok t' ∧
        t.Darker t') ∧
      ∃ reports reports' u u',
        checkEach g s.rules false {} g.bodies = (.ok reports, u) ∧
        checkEach g' s.rules false {} g'.bodies = (.ok reports', u') ∧
        analyze g s.rules false = .ok ⟨Report.sort reports.flatten, g.bodies.length, u.cache.size⟩ ∧
        analyze g' s.rules false =
          .ok ⟨Report.sort reports'.flatten, g.bodies.length, u'.cache.size⟩ ∧
        u.cache.Darker u'.cache ∧
        ∀ (i : Nat) (id : RoutineId), g.bodies[i]? = some id → ∃ report report', reports[i]? = some report ∧
          reports'[i]? = some report' ∧ Detection.Moves g g' s.rules id report report' := by
  rcases CallGraph.ofProgram_of_hides s h with hrefused | ⟨g, g', hok, hok', hg⟩
  · exact .inl hrefused
  · refine .inr ⟨g, g', hok, hok', hg, fun id => ?_, ?_⟩
    · obtain ⟨t, t', _, _, hsum, hsum', ht, _⟩ := summarize_darker hg View.darker_empty id
      exact ⟨t, t', congrArg Prod.fst hsum, congrArg Prod.fst hsum', ht⟩
    · have hindexed := CallGraph.ofProgram_indexed hok
      obtain ⟨reports, reports', u, u', heach, heach', hu, hall⟩ :=
        checkEach_darker hg hflow g.bodies (fun id hid => hindexed.routine?_of_mem_bodies hid)
          View.darker_empty
      rw [hg.bodies]
      refine ⟨reports, reports', u, u', heach, heach', ?_, ?_, hu.cache, hall⟩
      · simp [analyze, checkAll_of_each heach]
      · rw [← hg.bodies] at heach' ⊢
        simp [analyze, checkAll_of_each heach']

/-- A routine that provides twice, with a call between that leads back to it; the call and the second provide may be
put into something else. -/
def repeatedProvide (aroundCall aroundProvide : Operation → Operation) : Program where
  routines :=
    let provide : Operation :=
      .invocation { target := ⟨"ScopyRuntime", "CurrentScope", "Provide"⟩, valueType := some "T" } []
    let call (method : String) : Operation := .invocation { target := ⟨"", "", method⟩ } []
    [{ name := "A", body := some (.block [provide, aroundCall (call "B"), aroundProvide provide]) },
     { name := "B", body := some (.block [call "A"]) }]

def provideShown : Program := repeatedProvide id id

def provideHidden : Program :=
  repeatedProvide (fun op => .loop [op]) (fun op => .conditional none op none)

theorem provideShown_hides : provideShown.Hides provideHidden := by
  have hcall (c : Call) : Operation.Hides (.invocation c []) (.invocation c []) := .invocation .nil
  refine .cons ⟨.some (.block ?_), rfl⟩ (.cons ⟨.some (.block (.cons (hcall _) .nil)), rfl⟩ .nil)
  refine .cons (hcall _) (.cons ?_ (.cons ?_ .nil))
  · exact .around (hcall _) rfl rfl
  · exact .around (hcall _) rfl rfl

/-- The duplicates of the call and of the second provide become reports of hidden flow. -/
theorem hiding_moves_reports_of_repeated :
    ({} : Settings).rules.reportHiddenFlow = true ∧ provideShown.Hides provideHidden ∧
    let g := Lowering.graph {} 2 provideShown.routines
    let g' := Lowering.graph {} 2 provideHidden.routines
    CallGraph.ofProgram {} provideShown = .ok g ∧ CallGraph.ofProgram {} provideHidden = .ok g' ∧
      g.Darker g' ∧ ∃ report report', Detection.Moves g g' {} 0 report report' ∧
        report.map Diagnostic.code = [9001, 9001, 9001] ∧
        report'.map Diagnostic.code = [9002, 9002] := by
  refine ⟨rfl, provideShown_hides, rfl, rfl, ?_⟩
  rcases hiding_moves_reports {} rfl provideShown_hides with
    ⟨f, hf, _⟩ | ⟨g, g', hg, hg', hdark, _, reports, reports', u, u', heach, heach', _, _, _, hall⟩
  · cases hf
  · cases hg
    cases hg'
    obtain ⟨report, report', hr, hr', hmoves⟩ := hall 0 0 rfl
    cases heach
    cases heach'
    cases hr
    cases hr'
    exact ⟨hdark, _, _, hmoves, rfl, rfl⟩

end AmbientScope
