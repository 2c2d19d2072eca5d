import AmbientScope.Proofs.Calls
import AmbientScope.Proofs.Findings

/-!
# Hidden flow

A site is reported for hidden flow if one of its effects is hidden: either the site itself stands below a control
construct and has effects at all, or the summary of its callee has a hidden effect. The report is about the first such
effect. Duplicates come from the other effects only, on both sides of the collision.
-/

set_option autoImplicit false

namespace AmbientScope

namespace Detection

section Sites
variable {g : CallGraph} {id : RoutineId}

theorem splice_hidden_iff {callHidden : Bool} {summary : Summary} :
    (∃ e ∈ summary.splice callHidden, e.hidden = true) ↔
      (callHidden = true ∧ summary.splice callHidden ≠ []) ∨ ∃ e ∈ summary, e.hidden = true := by
  constructor
  · rintro ⟨e', he', hhidden⟩
    obtain ⟨e, he, rfl⟩ := List.mem_map.mp he'
    rcases Bool.or_eq_true_iff.mp hhidden with h | h
    · exact Or.inr ⟨e, he, h⟩
    · exact Or.inl ⟨h, List.ne_nil_of_mem he'⟩
  · intro h
    rcases h with ⟨hcall, hne⟩ | ⟨e, he, hhidden⟩
    · obtain ⟨e', he'⟩ := List.exists_mem_of_ne_nil _ hne
      obtain ⟨e, _, rfl⟩ := List.mem_map.mp he'
      exact ⟨_, he', by simp [Effect.through, hcall]⟩
    · exact ⟨_, List.mem_map_of_mem he, by simp [Effect.through, hhidden]⟩

/-- Some effect of the site is hidden: it is hidden itself and has effects, or the summary of its callee has one. -/
def Affected (g : CallGraph) (v : View) (s : Site) (es : List Effect) : Prop :=
  (s.hidden = true ∧ es ≠ []) ∨
    ∃ callee summary u, s.kind = .call callee ∧ summarize g false v callee = (.ok summary, u) ∧
      ∃ e ∈ summary, e.hidden = true

theorem affected_iff {v u : View} {s : Site} {es : List Effect}
    (h : contribution g false v id s = (.ok es, u)) :
    Affected g v s es ↔ ∃ e ∈ es, e.hidden = true := by
  unfold contribution at h
  unfold Affected
  cases hk : s.kind with
  | direct action =>
    obtain ⟨rfl, _⟩ : [s.effect id action] = es ∧ v = u := by simpa [hk] using h
    simp [Site.effect]
  | inert op =>
    obtain ⟨rfl, _⟩ : [] = es ∧ v = u := by simpa [hk] using h
    simp
  | external =>
    obtain ⟨rfl, _⟩ : [] = es ∧ v = u := by simpa [hk] using h
    simp
  | call callee =>
    obtain ⟨summary, w, hsum⟩ := summarize_succeeds g v callee
    obtain ⟨rfl, _⟩ : summary.splice s.hidden = es ∧ w = u := by simpa [hk, hsum] using h
    rw [splice_hidden_iff]
    apply or_congr_right
    constructor
    · rintro ⟨callee', summary', u', hk', hsum', hhidden⟩
      obtain rfl : callee = callee' := by simpa using hk'
      obtain ⟨rfl, _⟩ : summary = summary' ∧ w = u' := by simpa [hsum] using hsum'
      exact hhidden
    · intro hhidden
      exact ⟨callee, summary, w, rfl, hsum, hhidden⟩

/-- What the site with a given number contributes depends on the sites before it through the view alone. -/
theorem contribution_of_contributions {v u : View} {sites : List Site}
    {all : List (Site × List Effect)} (h : contributions g false v id sites = (.ok all, u))
    {k : Nat} {c : Site × List Effect} (hk : all[k]? = some c) :
    ∃ before w w', contributions g false v id (sites.take k) = (.ok before, w) ∧
      contribution g false w id c.1 = (.ok c.2, w') := by
  induction sites generalizing v all k with
  | nil =>
    obtain ⟨rfl, _⟩ : [] = all ∧ v = u := by simpa [contributions] using h
    simp at hk
  | cons s rest ih =>
    obtain ⟨effects, w, hs⟩ := contribution_succeeds g v id s
    obtain ⟨later, w', hrest, _⟩ := contributions_succeed g w id rest
    obtain ⟨rfl, rfl⟩ : (s, effects) :: later = all ∧ w' = u := by
      simpa [contributions, hs, hrest] using h
    cases k with
    | zero =>
      obtain rfl : (s, effects) = c := by simpa using hk
      exact ⟨[], v, w, by simp [contributions], hs⟩
    | succ k =>
      obtain ⟨before, x, x', hbefore, hat⟩ := ih hrest (by simpa using hk)
      exact ⟨(s, effects) :: before, x, x', by simp [contributions, hs, hbefore], hat⟩

end Sites

section Causes
variable {r : Routine}

/-- The duplicate stands for two positions of the stream, both of which provide its key and neither of which is hidden. -/
def Caused (r : Routine) (es : List (Site × Effect)) (positions : Nat × Nat) (d : Diagnostic) :
    Prop :=
  ∃ a b key, positions.1 < positions.2 ∧ es[positions.1]? = some a ∧
    es[positions.2]? = some b ∧ Provides a key ∧ Provides b key ∧
    d = { code := 9001, severity := .error, message := Template.alreadyProvided.fill [key.describe],
          file := r.file, span := some b.1.span,
          related := (r.sites[a.1.index]?).toList.map fun p =>
            { code := 9003, severity := .message,
              message := Template.previousProvide.fill [key.describe],
              file := r.file, span := some p.span } }

theorem caused_of_collision? {es rest : List (Site × Effect)} {x : Site × Effect} {d : Diagnostic}
    (h : collision? r (traceOf es) x = some d) :
    ∃ i, Caused r (es ++ x :: rest) (i, es.length) d := by
  by_cases hprov : ∃ key, Provides x key
  · obtain ⟨key, hx⟩ := hprov
    rw [collision?_of_provides _ hx] at h
    obtain ⟨n, hprevious, rfl⟩ := Option.map_eq_some_iff.mp h
    have hback := previousProvide?_traceOf es key
    rw [hprevious] at hback
    obtain ⟨i, a, hopen, rfl, _⟩ := hback
    have hlt := (List.getElem?_eq_some_iff.mp hopen.1).1
    refine ⟨i, a, x, key, hlt, ?_, by simp, hopen.2.1, hx, ?_⟩
    · rw [List.getElem?_append_left hlt]
      exact hopen.1
    · unfold duplicate
      cases r.sites[a.1.index]? <;> rfl
  · rw [collision?_of_not_provides _ (not_exists.mp hprov)] at h
    simp at h

/-- The duplicates that are left to report, each with the positions that cause it. -/
theorem collisions_caused (es rest : List (Site × Effect)) :
    ∃ causes : List (Nat × Nat), (causes.map Prod.snd).Pairwise (· < ·) ∧
      (∀ c ∈ causes, es.length ≤ c.2) ∧
      List.Forall₂ (Caused r (es ++ rest)) causes (collisions r (traceOf es) rest) := by
  induction rest generalizing es with
  | nil => exact ⟨[], .nil, by simp, .nil⟩
  | cons x rest ih =>
    obtain ⟨causes, hordered, hlater, hall⟩ := ih (es ++ [x])
    have hsplit : (es ++ [x]) ++ rest = es ++ x :: rest := by simp
    rw [hsplit, traceOf_concat] at hall
    have hlt : ∀ c ∈ causes, es.length < c.2 := by
      intro c hc
      have hle := hlater c hc
      simp only [List.length_append, List.length_singleton] at hle
      omega
    rw [collisions]
    cases hc : collision? r (traceOf es) x with
    | none => exact ⟨causes, hordered, fun c hc => Nat.le_of_lt (hlt c hc), hall⟩
    | some d =>
      obtain ⟨i, hcaused⟩ : ∃ i, Caused r (es ++ x :: rest) (i, es.length) d :=
        caused_of_collision? hc
      refine ⟨(i, es.length) :: causes, ?_, ?_, .cons hcaused hall⟩
      · rw [List.map_cons, List.pairwise_cons, List.forall_mem_map]
        exact ⟨hlt, hordered⟩
      · rw [List.forall_mem_cons]
        exact ⟨Nat.le_refl _, fun c hc => Nat.le_of_lt (hlt c hc)⟩

end Causes

/-- What a report says about hidden effects, when the sites of the routine contribute certain effects one after the
other. -/
structure Exposes (g : CallGraph) (rules : Rules) (v : View) (r : Routine)
    (all : List (Site × List Effect)) (report : Report) : Prop where
  sites : all.map Prod.fst = r.sites
  /-- One diagnostic for each site with a hidden effect, about the first one. -/
  flow : rules.reportHiddenFlow = true →
    report.filter (·.code == 9002) = all.filterMap fun c =>
      (c.2.find? Effect.hidden).map fun e =>
        { code := 9002, severity := if rules.hiddenFlowAsError then .error else .warning,
          message := Template.hiddenEffect.fill [e.action.describe, r.name],
          file := r.file, span := some c.1.span }
  /-- Which sites have a hidden effect, by what the worker sees when it comes to them. -/
  affected : ∀ k c, all[k]? = some c →
    ∃ before w w', contributions g false v r.id (r.sites.take k) = (.ok before, w) ∧
      contribution g false w r.id c.1 = (.ok c.2, w') ∧
      (Affected g w c.1 c.2 ↔ ∃ e ∈ c.2, e.hidden = true)
  duplicates : ∃ causes : List (Nat × Nat), (causes.map Prod.snd).Pairwise (· < ·) ∧
    List.Forall₂ (Caused r (stream all)) causes (report.filter (·.code == 9001))

end Detection

open Detection in
/-- A check by any worker without cancellation, on any graph and under any rules. If hidden flow is reported, there is
one such diagnostic for each site with a hidden effect and none for any other site: it is about the first hidden effect
of the site, stands at the site, and is an error if the rules say so. A duplicate is never caused by a hidden effect,
neither the provide that is reported nor the one that it is related to. -/
theorem hidden_flow_once_per_site (g : CallGraph) {id : RoutineId} {r : Routine}
    (hr : g.routine? id = some r) (rules : Rules) (v : View) :
    ∃ all u report, contributions g false v r.id r.sites = (.ok all, u) ∧
      check g rules false v id = (.ok report, u) ∧ Exposes g rules v r all report := by
  obtain ⟨all, u, hall, hsites⟩ := contributions_succeed g v r.id r.sites
  refine ⟨all, u, _, hall, check_of_contributions hr hall, hsites, ?_, ?_, ?_⟩
  · intro hflow
    rw [filter_reportOf_hidden hflow]
    congr 1
    funext c
    congr 1
    funext e
    unfold hiddenFlow
    cases rules.hiddenFlowAsError <;> rfl
  · intro k c hc
    obtain ⟨before, w, w', hbefore, hat⟩ := contribution_of_contributions hall hc
    exact ⟨before, w, w', hbefore, hat, affected_iff hat⟩
  · obtain ⟨causes, hordered, _, hcaused⟩ := collisions_caused (r := r) [] (stream all)
    rw [reportOf_filter]
    exact ⟨causes, hordered, hcaused⟩

/-- A call of a routine that provides for sure and then hides two effects, a hidden provide of what the callee provides
last, and a provide of what it provides first. -/
def mixedCall : CallGraph := CallGraph.ofSites
  [(none, [(.call 1, false), (.direct (.provide ⟨"V", none⟩), true),
      (.direct (.provide ⟨"T", none⟩), false)]),
   (none, [(.direct (.provide ⟨"T", none⟩), false), (.direct (.resolve ⟨"U", none⟩), true),
      (.direct (.provide ⟨"V", none⟩), true)])]

open Detection in
theorem hidden_flow_once_per_site_of_mixed :
    ∃ r all u d d' e, mixedCall.routine? 0 = some r ∧
      contributions mixedCall false {} r.id r.sites = (.ok all, u) ∧
      check mixedCall { hiddenFlowAsError := true } false {} 0 = (.ok [d, d', e], u) ∧
      [d, d', e].map Diagnostic.code = [9002, 9002, 9001] ∧
      Exposes mixedCall { hiddenFlowAsError := true } {} r all [d, d', e] := by
  obtain ⟨r, hr⟩ : ∃ r, mixedCall.routine? 0 = some r := ⟨_, rfl⟩
  obtain ⟨d, d', e, w, hthree, hcodes⟩ : ∃ d d' e w,
      check mixedCall { hiddenFlowAsError := true } false {} 0 = (.ok [d, d', e], w) ∧
        [d, d', e].map Diagnostic.code = [9002, 9002, 9001] :=
    ⟨_, _, _, _, rfl, rfl⟩
  obtain ⟨all, u, report, hall, hcheck, hexposes⟩ :=
    hidden_flow_once_per_site mixedCall hr { hiddenFlowAsError := true } {}
  obtain ⟨rfl, rfl⟩ : [d, d', e] = report ∧ w = u := by simpa [hthree] using hcheck
  exact ⟨r, all, w, d, d', e, hr, hall, hthree, hcodes, hexposes⟩

end AmbientScope
