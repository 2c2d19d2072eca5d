import AmbientScope.Flow.Analysis
import AmbientScope.Proofs.Findings
import AmbientScope.Proofs.SortedReports

/-!
# Switching rules on and off

The rules of an analysis decide which diagnostics its checks report and how serious they are, and nothing else: what
the sites contribute, the trace and the cache do not depend on them. So two analyses under different rules agree on
their duplicates, on their echoes if both of them echo, and up to the severity on hidden flow if both of them report it.
-/

set_option autoImplicit false

namespace AmbientScope

/-- The diagnostics of one code, in order. -/
def Report.ofCode (r : Report) (code : Nat) : Report := r.filter (·.code == code)

/-- What a check may report under the rules. -/
inductive Diagnostic.Allowed (rules : Rules) (d : Diagnostic) : Prop where
  | echo : rules.debugEcho = true → d.code = 9000 → d.severity = .message → Allowed rules d
  | duplicate : d.code = 9001 → d.severity = .error → Allowed rules d
  | hiddenFlow : rules.reportHiddenFlow = true → d.code = 9002 →
      d.severity = (if rules.hiddenFlowAsError then .error else .warning) → Allowed rules d

/-- Two reports on the same effects, each under rules of its own. -/
structure Report.Matches (rules rules' : Rules) (a b : Report) : Prop where
  allowed : ∀ d ∈ a, d.Allowed rules
  allowed' : ∀ d ∈ b, d.Allowed rules'
  duplicates : a.ofCode 9001 = b.ofCode 9001
  echoes : rules.debugEcho = true → rules'.debugEcho = true → a.ofCode 9000 = b.ofCode 9000
  hidden : rules.reportHiddenFlow = true → rules'.reportHiddenFlow = true →
    (a.ofCode 9002).map (·.withSeverity .warning) = (b.ofCode 9002).map (·.withSeverity .warning)

namespace Report
variable {rules rules' : Rules} {a b a' b' : Report}

theorem ofCode_append (a b : Report) (code : Nat) :
    ofCode (a ++ b) code = a.ofCode code ++ b.ofCode code :=
  List.filter_append ..

theorem ofCode_sort (a : Report) (code : Nat) : (sort a).ofCode code = sort (a.ofCode code) :=
  filter_sort _ a

theorem matches_nil : Matches rules rules' [] [] :=
  ⟨by simp, by simp, rfl, fun _ _ => rfl, fun _ _ => rfl⟩

theorem Matches.append (h : Matches rules rules' a b) (h' : Matches rules rules' a' b') :
    Matches rules rules' (a ++ a') (b ++ b') where
  allowed := List.forall_mem_append.mpr ⟨h.allowed, h'.allowed⟩
  allowed' := List.forall_mem_append.mpr ⟨h.allowed', h'.allowed'⟩
  duplicates := by
    rw [ofCode_append, ofCode_append, h.duplicates, h'.duplicates]
  echoes := by
    intro he he'
    rw [ofCode_append, ofCode_append, h.echoes he he', h'.echoes he he']
  hidden := by
    intro hf hf'
    rw [ofCode_append, ofCode_append, List.map_append, List.map_append, h.hidden hf hf',
      h'.hidden hf hf']

/-- Sorting keeps what two reports have in common: it never looks at severities. -/
theorem Matches.sort (h : Matches rules rules' a b) : Matches rules rules' a.sort b.sort where
  allowed := fun d hd => h.allowed d ((sort_perm a).mem_iff.mp hd)
  allowed' := fun d hd => h.allowed' d ((sort_perm b).mem_iff.mp hd)
  duplicates := by
    rw [ofCode_sort, ofCode_sort, h.duplicates]
  echoes := by
    intro he he'
    rw [ofCode_sort, ofCode_sort, h.echoes he he']
  hidden := by
    intro hf hf'
    have hle (x y : Diagnostic) :
        (x.withSeverity .warning).le (y.withSeverity .warning) = x.le y := rfl
    rw [ofCode_sort, ofCode_sort, map_sort hle, map_sort hle, h.hidden hf hf']

end Report

namespace Detection
variable {rules : Rules} {r : Routine} {s : Site} {t : Trace} {reported : Bool} {e : Effect}
  {d : Diagnostic}

theorem mem_echo (h : d ∈ echo rules r s e) :
    rules.debugEcho = true ∧ d = atSite r s .debugEcho [e.action.describe] := by
  unfold echo at h
  split at h
  · exact ⟨by assumption, List.mem_singleton.mp h⟩
  · exact absurd h List.not_mem_nil

theorem mem_findings (h : d ∈ findings rules r s t reported e) :
    (rules.reportHiddenFlow = true ∧ d = hiddenFlow rules r s e) ∨
      ∃ key previous, d = duplicate r s key previous := by
  unfold findings at h
  split at h
  · split at h
    · rename_i hflow
      exact .inl ⟨(Bool.and_eq_true_iff.mp hflow).1, List.mem_singleton.mp h⟩
    · exact absurd h List.not_mem_nil
  · split at h
    · exact absurd h List.not_mem_nil
    · split at h
      · exact .inr ⟨_, _, List.mem_singleton.mp h⟩
      · exact absurd h List.not_mem_nil

theorem hiddenFlow_severity (rules : Rules) (r : Routine) (s : Site) (e : Effect) :
    (hiddenFlow rules r s e).severity = if rules.hiddenFlowAsError then .error else .warning := by
  unfold hiddenFlow
  split <;> rfl

theorem duplicate_severity (r : Routine) (s : Site) (key : ValueKey) (previous : Nat) :
    (duplicate r s key previous).severity = .error := by
  unfold duplicate
  split <;> rfl

theorem allowed_of_mem_echo (h : d ∈ echo rules r s e) : d.Allowed rules := by
  obtain ⟨hecho, rfl⟩ := mem_echo h
  exact .echo hecho rfl rfl

theorem allowed_of_mem_findings (h : d ∈ findings rules r s t reported e) : d.Allowed rules := by
  rcases mem_findings h with ⟨hflow, rfl⟩ | ⟨key, previous, rfl⟩
  · exact .hiddenFlow hflow (hiddenFlow_code rules r s e) (hiddenFlow_severity rules r s e)
  · exact .duplicate (duplicate_code r s key previous) (duplicate_severity r s key previous)

theorem siteReport_allowed (t : Trace) (reported : Bool) (es : List Effect) :
    ∀ d ∈ siteReport rules r s t reported es, d.Allowed rules := by
  induction es generalizing t reported with
  | nil => simp [siteReport]
  | cons e rest ih =>
    rw [siteReport, List.forall_mem_append, List.forall_mem_append]
    exact ⟨⟨fun _ => allowed_of_mem_echo, fun _ => allowed_of_mem_findings⟩, ih _ _⟩

theorem filter_findings_echo :
    (findings rules r s t reported e).filter (·.code == 9000) = [] := by
  rw [List.filter_eq_nil_iff]
  intro d hd
  rcases mem_findings hd with ⟨_, rfl⟩ | ⟨key, previous, rfl⟩
  · simp [hiddenFlow_code]
  · simp [duplicate_code]

/-- When effects are echoed, all of them are. -/
theorem filter_siteReport_echo (hecho : rules.debugEcho = true) (t : Trace) (reported : Bool)
    (es : List Effect) :
    (siteReport rules r s t reported es).filter (·.code == 9000) =
      es.map fun e => atSite r s .debugEcho [e.action.describe] := by
  induction es generalizing t reported with
  | nil => rfl
  | cons e rest ih =>
    rw [siteReport, List.filter_append, List.filter_append, filter_findings_echo, ih, echo,
      if_pos hecho]
    rfl

theorem hiddenFlow_withSeverity (rules : Rules) (r : Routine) (s : Site) (e : Effect) :
    (hiddenFlow rules r s e).withSeverity .warning =
      atSite r s .hiddenEffect [e.action.describe, r.name] := by
  unfold hiddenFlow
  split <;> rfl

/-- Of one site the first hidden effect is reported, at whatever severity. -/
theorem siteReport_matches (rules rules' : Rules) (r : Routine) (s : Site) (t : Trace)
    (es : List Effect) :
    Report.Matches rules rules' (siteReport rules r s t false es)
      (siteReport rules' r s t false es) where
  allowed := siteReport_allowed t false es
  allowed' := siteReport_allowed t false es
  duplicates := by
    rw [Report.ofCode, Report.ofCode, siteReport_filter, siteReport_filter]
  echoes := by
    intro he he'
    rw [Report.ofCode, Report.ofCode, filter_siteReport_echo he, filter_siteReport_echo he']
  hidden := by
    intro hf hf'
    rw [Report.ofCode, Report.ofCode, filter_siteReport_hidden hf, filter_siteReport_hidden hf']
    cases es.find? Effect.hidden with
    | none => rfl
    | some e => simp [hiddenFlow_withSeverity]

theorem reportOf_matches (rules rules' : Rules) (r : Routine) (t : Trace)
    (all : List (Site × List Effect)) :
    Report.Matches rules rules' (reportOf rules r t all) (reportOf rules' r t all) := by
  induction all generalizing t with
  | nil => exact Report.matches_nil
  | cons c rest ih => exact (siteReport_matches rules rules' r c.1 t c.2).append (ih _)

end Detection

section Runs
variable (g : CallGraph) (rules rules' : Rules)

theorem check_matches (v : View) (id : RoutineId) :
    ∃ a b u, check g rules false v id = (.ok a, u) ∧ check g rules' false v id = (.ok b, u) ∧
      a.Matches rules rules' b := by
  cases hr : g.routine? id with
  | none => exact ⟨[], [], v, by simp [check, hr], by simp [check, hr], Report.matches_nil⟩
  | some r =>
    obtain ⟨all, u, hall, _⟩ := Detection.contributions_succeed g v r.id r.sites
    exact ⟨_, _, u, check_of_contributions hr hall, check_of_contributions hr hall,
      Detection.reportOf_matches rules rules' r [] all⟩

theorem checkAll_matches (v : View) (ids : List RoutineId) :
    ∃ a b u, checkAll g rules false v ids = (.ok a, u) ∧
      checkAll g rules' false v ids = (.ok b, u) ∧ a.Matches rules rules' b := by
  induction ids generalizing v with
  | nil => exact ⟨[], [], v, rfl, rfl, Report.matches_nil⟩
  | cons id rest ih =>
    obtain ⟨a, b, u, ha, hb, hfirst⟩ := check_matches g rules rules' v id
    obtain ⟨a', b', w, ha', hb', hrest⟩ := ih u
    refine ⟨a ++ a', b ++ b', w, ?_, ?_, hfirst.append hrest⟩
    · simp only [checkAll, ha, ha']
    · simp only [checkAll, hb, hb']

end Runs

/-- What the rules say about a result taken by itself. -/
structure AnalysisResult.Obeys (rules : Rules) (a : AnalysisResult) : Prop where
  codes : ∀ d ∈ a.report, d.code = 9000 ∨ d.code = 9001 ∨ d.code = 9002
  echo_off : rules.debugEcho = false → a.report.ofCode 9000 = []
  flow_off : rules.reportHiddenFlow = false → a.report.ofCode 9002 = []
  errors : a.report.hasErrors = true ↔ a.report.ofCode 9001 ≠ [] ∨
    (rules.hiddenFlowAsError = true ∧ a.report.ofCode 9002 ≠ [])

theorem Report.ofCode_ne_nil {a : Report} {code : Nat} :
    a.ofCode code ≠ [] ↔ ∃ d ∈ a, d.code = code := by
  simp [ofCode, List.filter_eq_nil_iff]

namespace Diagnostic.Allowed
variable {rules : Rules} {d : Diagnostic} (h : d.Allowed rules)
include h

theorem code : d.code = 9000 ∨ d.code = 9001 ∨ d.code = 9002 := by
  cases h with
  | echo _ hc _ => exact .inl hc
  | duplicate hc _ => exact .inr (.inl hc)
  | hiddenFlow _ hc _ => exact .inr (.inr hc)

theorem isError_iff :
    d.isError = true ↔ d.code = 9001 ∨ (rules.hiddenFlowAsError = true ∧ d.code = 9002) := by
  cases h with
  | echo _ hc hs => simp [isError, hc, hs]
  | duplicate hc hs => simp [isError, hc, hs]
  | hiddenFlow _ hc hs => cases hflag : rules.hiddenFlowAsError <;> simp [isError, hc, hs, hflag]

end Diagnostic.Allowed

theorem AnalysisResult.obeys_of_allowed {rules : Rules} {a : AnalysisResult}
    (h : ∀ d ∈ a.report, d.Allowed rules) : a.Obeys rules where
  codes := fun d hd => (h d hd).code
  echo_off := by
    intro hoff
    by_contra hne
    obtain ⟨d, hd, hcode⟩ := Report.ofCode_ne_nil.mp hne
    cases h d hd <;> simp_all
  flow_off := by
    intro hoff
    by_contra hne
    obtain ⟨d, hd, hcode⟩ := Report.ofCode_ne_nil.mp hne
    cases h d hd <;> simp_all
  errors := by
    rw [Report.hasErrors, List.any_eq_true, Report.ofCode_ne_nil, Report.ofCode_ne_nil]
    constructor
    · rintro ⟨d, hd, herror⟩
      rcases (h d hd).isError_iff.mp herror with hcode | ⟨hflag, hcode⟩
      · exact .inl ⟨d, hd, hcode⟩
      · exact .inr ⟨hflag, d, hd, hcode⟩
    · rintro (⟨d, hd, hcode⟩ | ⟨hflag, d, hd, hcode⟩)
      · exact ⟨d, hd, (h d hd).isError_iff.mpr (.inl hcode)⟩
      · exact ⟨d, hd, (h d hd).isError_iff.mpr (.inr ⟨hflag, hcode⟩)⟩

/-- Analyses of one program that differ in their rules alone fail for the same reason, or both succeed after the same
checks and with the same summaries. Their sorted reports have the same duplicates with the same related diagnostics,
the same echoes where both echo, and the same hidden flow up to its severity where both report it; what is switched
off does not occur, nor does any other code; and errors are the duplicates, and hidden flow where it is made one. -/
theorem rules_select_reports (s : Settings) (rules rules' : Rules) (p : Program) (cancelled : Bool) :
    match analyzeProgram { s with rules := rules } p cancelled,
      analyzeProgram { s with rules := rules' } p cancelled with
    | .ok a, .ok b =>
      a.checked = b.checked ∧ a.cached = b.cached ∧ a.report.Matches rules rules' b.report ∧
        a.Obeys rules ∧ b.Obeys rules'
    | .error f, .error f' => f = f'
    | _, _ => False := by
  have hgraph : CallGraph.ofProgram { s with rules := rules' } p =
      CallGraph.ofProgram { s with rules := rules } p := rfl
  unfold analyzeProgram
  rw [hgraph]
  cases CallGraph.ofProgram { s with rules := rules } p with
  | error f => exact rfl
  | ok g =>
    cases cancelled with
    | true => exact rfl
    | false =>
      obtain ⟨a, b, u, ha, hb, hmatch⟩ := checkAll_matches g rules rules' {} g.bodies
      simp only [Bind.bind, Except.bind, analyze, ha, hb]
      exact ⟨rfl, rfl, hmatch.sort, AnalysisResult.obeys_of_allowed hmatch.sort.allowed,
        AnalysisResult.obeys_of_allowed hmatch.sort.allowed'⟩

end AmbientScope
