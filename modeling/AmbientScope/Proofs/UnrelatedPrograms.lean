import AmbientScope.Proofs.Merging
import AmbientScope.Proofs.RenumberedRuns
import AmbientScope.Scenario.Basic

/-!
# Unrelated programs

The analysis of merged programs takes turns between the two: each check of a routine does what it would do in the
analysis of its own program, and leaves alone what the checks of the other program see. This needs no assumption on
cycles, because a cycle lies within one program and is entered by the same routines in the same order. So the merged
analysis reports the diagnostics of both analyses, and its cache falls apart into theirs.
-/

set_option autoImplicit false

namespace AmbientScope

/-- The worker of the merged analysis between two checks: it sees what the workers of the two analyses see, and nothing
else is cached. -/
structure View.Divides (f f' : RoutineId → RoutineId) (v v₁ v₂ : View) : Prop where
  left : v₁.Rests f v
  right : v₂.Rests f' v
  nothing : ∀ q, (∀ i, f i ≠ q) → (∀ j, f' j ≠ q) → v.cache.get? q = none

namespace View.Divides
variable {f f' : RoutineId → RoutineId} {v v₁ v₂ u u₁ : View}

theorem empty (f f' : RoutineId → RoutineId) : Divides f f' {} {} {} :=
  ⟨.empty f, .empty f', fun _ _ _ => rfl⟩

theorem symm (h : Divides f f' v v₁ v₂) : Divides f' f v v₂ v₁ :=
  ⟨h.right, h.left, fun q hleft hright => h.nothing q hright hleft⟩

/-- A check of the first program leaves alone what the second one sees. -/
theorem left_check (hapart : ∀ i j, f i ≠ f' j) (h : Divides f f' v v₁ v₂) (hu : u₁.Rests f u)
    (hspares : v.cache.Spares f u.cache) : Divides f f' u u₁ v₂ where
  left := hu
  right := by
    refine ⟨fun j => ?_, h.right.marks, hu.marks'⟩
    rw [hspares (f' j) fun i => hapart i j]
    exact h.right.cache j
  nothing := by
    intro q hleft hright
    rw [hspares q hleft]
    exact h.nothing q hleft hright

variable (hf : Function.Injective f) (hf' : Function.Injective f') (hapart : ∀ i j, f i ≠ f' j)
include hf hf' hapart

theorem keys_perm (h : Divides f f' v v₁ v₂) :
    v.cache.keys.Perm (v₁.cache.keys.map f ++ v₂.cache.keys.map f') := by
  have hdisjoint : List.Disjoint (v₁.cache.keys.map f) (v₂.cache.keys.map f') := by
    intro q hleft hright
    obtain ⟨i, _, rfl⟩ := List.mem_map.mp hleft
    obtain ⟨j, _, hij⟩ := List.mem_map.mp hright
    exact hapart i j hij.symm
  rw [List.perm_ext_iff_of_nodup v.cache.nodup_keys
    ((v₁.cache.nodup_keys.map hf).append (v₂.cache.nodup_keys.map hf') hdisjoint)]
  intro q
  rw [List.mem_append, List.mem_map, List.mem_map]
  constructor
  · intro hq
    by_cases hleft : ∃ i, f i = q
    · obtain ⟨i, rfl⟩ := hleft
      exact .inl ⟨i, (h.left.cache.mem_keys i).mp hq, rfl⟩
    · by_cases hright : ∃ j, f' j = q
      · obtain ⟨j, rfl⟩ := hright
        exact .inr ⟨j, (h.right.cache.mem_keys j).mp hq, rfl⟩
      · have hnone := h.nothing q (not_exists.mp hleft) (not_exists.mp hright)
        rw [← FirstWrite.contains_iff_mem_keys, FirstWrite.contains, hnone] at hq
        exact absurd hq Bool.false_ne_true
  · rintro (⟨i, hi, rfl⟩ | ⟨j, hj, rfl⟩)
    · exact (h.left.cache.mem_keys i).mpr hi
    · exact (h.right.cache.mem_keys j).mpr hj

theorem size_add (h : Divides f f' v v₁ v₂) :
    v.cache.size = v₁.cache.size + v₂.cache.size := by
  simpa [FirstWrite.keys, FirstWrite.size] using (h.keys_perm hf hf' hapart).length_eq

end View.Divides

section Runs
variable {f f' : RoutineId → RoutineId} {g g' k : CallGraph} (hg : g.Embeds f k)
  (hg' : g'.Embeds f' k) (hapart : ∀ i j, f i ≠ f' j) (rules : Rules)
include hg hg' hapart

/-- Checks of both programs in a merged order, and the same checks in the analyses of the two. -/
theorem checkEach_merge {as bs cs : List RoutineId} (hmerge : Merge as bs cs)
    {ids ids' : List RoutineId} (has : as = ids.map f) (hbs : bs = ids'.map f') {v v₁ v₂ : View}
    (hv : View.Divides f f' v v₁ v₂) :
    ∃ reports reports₁ reports₂ u u₁ u₂, checkEach k rules false v cs = (.ok reports, u) ∧
      checkEach g rules false v₁ ids = (.ok reports₁, u₁) ∧
      checkEach g' rules false v₂ ids' = (.ok reports₂, u₂) ∧
      Merge reports₁ reports₂ reports ∧ View.Divides f f' u u₁ u₂ := by
  induction hmerge generalizing ids ids' v v₁ v₂ with
  | nil =>
    obtain rfl := List.map_eq_nil_iff.mp has.symm
    obtain rfl := List.map_eq_nil_iff.mp hbs.symm
    exact ⟨[], [], [], v, v₁, v₂, rfl, rfl, rfl, .nil, hv⟩
  | left _ ih =>
    obtain ⟨id, rest, rfl, rfl, rfl⟩ := List.map_eq_cons_iff.mp has.symm
    obtain ⟨report, w₁, w, hcheck₁, hcheck, hw, hspares⟩ := check_carried hg rules hv.left id
    obtain ⟨reports, reports₁, reports₂, u, u₁, u₂, heach, heach₁, heach₂, hreports, hu⟩ :=
      ih rfl hbs (hv.left_check hapart hw hspares)
    refine ⟨report :: reports, report :: reports₁, reports₂, u, u₁, u₂, ?_, ?_, heach₂,
      hreports.left, hu⟩
    · simp only [checkEach, hcheck, heach]
    · simp only [checkEach, hcheck₁, heach₁]
  | right _ ih =>
    obtain ⟨id, rest, rfl, rfl, rfl⟩ := List.map_eq_cons_iff.mp hbs.symm
    obtain ⟨report, w₂, w, hcheck₂, hcheck, hw, hspares⟩ := check_carried hg' rules hv.right id
    obtain ⟨reports, reports₁, reports₂, u, u₁, u₂, heach, heach₁, heach₂, hreports, hu⟩ :=
      ih has rfl (hv.symm.left_check (fun j i => (hapart i j).symm) hw hspares).symm
    refine ⟨report :: reports, reports₁, report :: reports₂, u, u₁, u₂, ?_, heach₁, ?_,
      hreports.right, hu⟩
    · simp only [checkEach, hcheck, heach]
    · simp only [checkEach, hcheck₂, heach₂]

end Runs

/-- The analysis of a program whose names are distinct, as a run over its graph. -/
theorem analyzeProgram_of_each {s : Settings} {p : Program}
    (hp : (p.routines.map Declaration.qualifiedName).Nodup) {reports : List Report} {u : View}
    (h : checkEach (p.graph s) s.rules false {} (p.graph s).bodies = (.ok reports, u)) :
    analyzeProgram s p false =
      .ok ⟨Report.sort reports.flatten, (p.graph s).bodies.length, u.cache.size⟩ :=
  analyzeProgram_of_graph (CallGraph.ofProgram_of_nodup s hp) h

theorem analyzeProgram_succeeds {s : Settings} {p : Program}
    (hp : (p.routines.map Declaration.qualifiedName).Nodup) :
    ∃ a, analyzeProgram s p false = .ok a := by
  obtain ⟨reports, u, _, heach, _⟩ := Parallel.reaches_one_job (p.graph s) s.rules
  exact ⟨_, analyzeProgram_of_each hp heach⟩

theorem analyzeProgram_of_duplicate {s : Settings} {p : Program} {name : String}
    (h : Lowering.duplicate? [] (p.routines.map Declaration.qualifiedName) = some name) :
    analyzeProgram s p false = .error (.duplicateRoutine name) := by
  simp [analyzeProgram, CallGraph.ofProgram, h, Bind.bind, Except.bind]

/-- The merged analysis of programs that both have graphs. -/
theorem Program.Unrelated.analyses_add {s : Settings} {p q m : Program} (h : p.Unrelated s q)
    (hmerge : Merge p.routines q.routines m.routines)
    (hp : (p.routines.map Declaration.qualifiedName).Nodup)
    (hq : (q.routines.map Declaration.qualifiedName).Nodup) :
    ∃ a b c, analyzeProgram s p false = .ok a ∧ analyzeProgram s q false = .ok b ∧
      analyzeProgram s m false = .ok c ∧ c.report.Perm (a.report ++ b.report) ∧
      c.checked = a.checked + b.checked ∧ c.cached = a.cached + b.cached := by
  obtain ⟨f, f', hdivides⟩ := Lowering.exists_divides (h.lowered_merge hmerge hp hq)
  have hleft := h.embeds hmerge hp hq hdivides
  have hright := h.symm.embeds hmerge.symm hq hp hdivides.symm
  have hbodies := h.bodies_merge hmerge hp hq hdivides
  obtain ⟨reports, reports₁, reports₂, u, u₁, u₂, heach, heach₁, heach₂, hreports, hu⟩ :=
    checkEach_merge hleft hright hdivides.apart s.rules hbodies rfl rfl (View.Divides.empty f f')
  refine ⟨_, _, _, analyzeProgram_of_each hp heach₁, analyzeProgram_of_each hq heach₂,
    analyzeProgram_of_each (h.nodup_merged hmerge hp hq) heach, ?_, ?_, ?_⟩
  · have hjoined := hreports.perm.flatten
    rw [List.flatten_append] at hjoined
    refine (Report.sort_perm _).trans (hjoined.trans ?_)
    exact (Report.sort_perm _).symm.append (Report.sort_perm _).symm
  · simpa using hbodies.perm.length_eq
  · exact hu.size_add hdivides.left.injective hdivides.right.injective hdivides.apart

/-- Analyzing a merge of two unrelated programs with one job, cycles allowed. It is refused exactly if one of the two
analyses is, for a name that one of them is refused for. Otherwise it reports the diagnostics of both, checks as many
routines and caches as many summaries as both together. -/
theorem unrelated_programs_add (s : Settings) {p q m : Program} (hrelated : p.Unrelated s q)
    (hmerge : Merge p.routines q.routines m.routines) :
    match analyzeProgram s p false, analyzeProgram s q false, analyzeProgram s m false with
    | .ok a, .ok b, .ok c =>
      c.report.Perm (a.report ++ b.report) ∧ c.checked = a.checked + b.checked ∧
        c.cached = a.cached + b.cached
    | .error (.duplicateRoutine x), .ok _, .error (.duplicateRoutine z) => z = x
    | .ok _, .error (.duplicateRoutine y), .error (.duplicateRoutine z) => z = y
    | .error (.duplicateRoutine x), .error (.duplicateRoutine y), .error (.duplicateRoutine z) =>
      z = x ∨ z = y
    | _, _, _ => False := by
  have hmerged := @Lowering.duplicate?_of_merge _ _ _ (hmerge.map Declaration.qualifiedName) [] [] []
    (fun _ => hrelated.not_mem_names) (by simp) (by simp)
  cases hx : Lowering.duplicate? [] (p.routines.map Declaration.qualifiedName) with
  | none =>
    have hp := (Lowering.duplicate?_eq_none_iff.mp hx).1
    cases hy : Lowering.duplicate? [] (q.routines.map Declaration.qualifiedName) with
    | none =>
      have hq := (Lowering.duplicate?_eq_none_iff.mp hy).1
      obtain ⟨a, b, c, ha, hb, hc, hsum⟩ := hrelated.analyses_add hmerge hp hq
      simpa only [ha, hb, hc] using hsum
    | some y =>
      obtain ⟨a, ha⟩ := analyzeProgram_succeeds (s := s) hp
      have hz : Lowering.duplicate? [] (m.routines.map Declaration.qualifiedName) = some y := by
        simpa [hx, hy] using hmerged
      simp only [ha, analyzeProgram_of_duplicate hy, analyzeProgram_of_duplicate hz]
  | some x =>
    cases hy : Lowering.duplicate? [] (q.routines.map Declaration.qualifiedName) with
    | none =>
      have hq := (Lowering.duplicate?_eq_none_iff.mp hy).1
      obtain ⟨b, hb⟩ := analyzeProgram_succeeds (s := s) hq
      have hz : Lowering.duplicate? [] (m.routines.map Declaration.qualifiedName) = some x := by
        simpa [hx, hy] using hmerged
      simp only [hb, analyzeProgram_of_duplicate hx, analyzeProgram_of_duplicate hz]
    | some y =>
      have hz : Lowering.duplicate? [] (m.routines.map Declaration.qualifiedName) = some x ∨
          Lowering.duplicate? [] (m.routines.map Declaration.qualifiedName) = some y := by
        simpa [hx, hy] using hmerged
      rcases hz with hz | hz
      · simp only [analyzeProgram_of_duplicate hx, analyzeProgram_of_duplicate hy,
          analyzeProgram_of_duplicate hz, true_or]
      · simp only [analyzeProgram_of_duplicate hx, analyzeProgram_of_duplicate hy,
          analyzeProgram_of_duplicate hz, or_true]

open Scenario in
/-- Two routines that call each other, both of which provide the same type. -/
def pingPong : List Declaration :=
  [routine "Ping" none [] none [provide "Logger" 1, call "Pong" 2 []],
    routine "Pong" none [] none [provide "Logger" 3, call "Ping" 4 []]]

open Scenario in
/-- A routine that repeats a provide through one for which a wrapper is generated. -/
def mainAndLoad : List Declaration :=
  [routine "Main" none [] none [provide "Logger" 5, call "Load" 6 []],
    routine "Load" none [scopedParameter "logger" "Logger"] none [provide "Logger" 7]]

/-- The second program declared between the two routines of the first one. -/
def pingMainLoadPong : List Declaration :=
  pingPong.take 1 ++ mainAndLoad ++ pingPong.drop 1

theorem unrelated_programs_add_cyclic :
    Program.Unrelated {} ⟨pingPong⟩ ⟨mainAndLoad⟩ ∧ Merge pingPong mainAndLoad pingMainLoadPong ∧
    ∃ a b c, analyzeProgram {} ⟨pingPong⟩ false = .ok a ∧
      analyzeProgram {} ⟨mainAndLoad⟩ false = .ok b ∧
      analyzeProgram {} ⟨pingMainLoadPong⟩ false = .ok c ∧
      c.report.Perm (a.report ++ b.report) ∧ c.report.length = 4 ∧ c.checked = 5 ∧
      c.cached = a.cached + b.cached := by
  have hapart : ∀ name ∈ (Program.lowered {} ⟨pingPong⟩).map Declaration.qualifiedName,
      name ∉ (Program.lowered {} ⟨mainAndLoad⟩).map Declaration.qualifiedName := by decide
  have hcalls : ∀ d ∈ pingPong, ∀ c ∈ Operation.optionCalls false d.body,
      c.1.target.qualified ∉
        (Program.lowered {} ⟨mainAndLoad⟩).map Declaration.qualifiedName := by decide
  have hcalls' : ∀ d ∈ mainAndLoad, ∀ c ∈ Operation.optionCalls false d.body,
      c.1.target.qualified ∉ (Program.lowered {} ⟨pingPong⟩).map Declaration.qualifiedName := by
    decide
  have hrelated : Program.Unrelated {} ⟨pingPong⟩ ⟨mainAndLoad⟩ :=
    ⟨fun name hp hq => hapart name (Program.mem_names_lowered hp) (Program.mem_names_lowered hq),
      fun d hd c hc hq => hcalls d hd c hc (Program.mem_names_lowered hq),
      fun d hd c hc hp => hcalls' d hd c hc (Program.mem_names_lowered hp)⟩
  have hmerge : Merge pingPong mainAndLoad pingMainLoadPong :=
    .left (.right (.right (.left .nil)))
  obtain ⟨reports, u, heach, hping⟩ : ∃ reports u, checkEach (Program.graph {} ⟨pingPong⟩) {} false {}
      (Program.graph {} ⟨pingPong⟩).bodies = (.ok reports, u) ∧ reports.flatten.length = 3 :=
    ⟨_, _, rfl, rfl⟩
  obtain ⟨reports', u', heach', hmain⟩ : ∃ reports u,
      checkEach (Program.graph {} ⟨mainAndLoad⟩) {} false {}
        (Program.graph {} ⟨mainAndLoad⟩).bodies = (.ok reports, u) ∧ reports.flatten.length = 1 :=
    ⟨_, _, rfl, rfl⟩
  have ha := analyzeProgram_of_each (s := {}) (p := ⟨pingPong⟩) (by decide) heach
  have hb := analyzeProgram_of_each (s := {}) (p := ⟨mainAndLoad⟩) (by decide) heach'
  obtain ⟨c, hc⟩ := analyzeProgram_succeeds (s := {}) (p := ⟨pingMainLoadPong⟩) (by decide)
  have hsum := unrelated_programs_add {} (m := ⟨pingMainLoadPong⟩) hrelated hmerge
  simp only [ha, hb, hc] at hsum
  obtain ⟨hreport, hchecked, hcached⟩ := hsum
  refine ⟨hrelated, hmerge, _, _, c, ha, hb, hc, hreport, ?_, hchecked, hcached⟩
  rw [hreport.length_eq, List.length_append, (Report.sort_perm _).length_eq,
    (Report.sort_perm _).length_eq, hping, hmain]

end AmbientScope
