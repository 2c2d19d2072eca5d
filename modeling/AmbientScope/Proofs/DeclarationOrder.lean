import AmbientScope.Proofs.Interleaving
import AmbientScope.Proofs.Placements
import AmbientScope.Proofs.SortedReports
import AmbientScope.Scenario.Basic

/-!
# The order of declarations

Exchanging declarations exchanges the routines of the graph, the wrappers among them: a wrapper joins if its name is
not declared, wherever the declaration stands, because wrappers of differently named routines have different names.
On a graph without cycles the report on a routine is computed from expansions, and these move along with the
routines. So the order of declarations decides nothing but the order in which reports are joined before they are sorted.
-/

set_option autoImplicit false

namespace AmbientScope

namespace Declaration
variable {d w : Declaration} {v : Vocabulary} {suffix : String}

theorem wrapper?_qualifiedName (hname : d.name ≠ "") (h : d.wrapper? v suffix = some w) :
    w.qualifiedName = d.qualifiedName ++ suffix := by
  unfold wrapper? at h
  split at h
  · obtain rfl := Option.some.inj h
    have happend : d.name ++ suffix ≠ "" := by
      simpa using fun hempty => absurd hempty hname
    by_cases hspace : d.namespaceName = "" <;> by_cases htype : d.containingType = "" <;>
      simp [qualifiedName, qualify, hspace, htype, hname, happend, String.append_assoc]
  · simp at h

end Declaration

/-- A list that is rearranged has its entries at other positions. -/
theorem exists_positions_of_perm {α : Type} {xs ys : List α} (h : xs.Perm ys) :
    ∃ f : Nat → Nat, Function.Bijective f ∧ ∀ i, ys[f i]? = xs[i]? := by
  induction h with
  | nil => exact ⟨id, Function.bijective_id, fun _ => rfl⟩
  | cons x _ ih =>
    obtain ⟨f, hf, hget⟩ := ih
    refine ⟨shift f, ⟨shift_injective hf.injective, shift_surjective hf.surjective⟩, fun i => ?_⟩
    cases i with
    | zero => rfl
    | succ i => simpa [shift] using hget i
  | swap x y l =>
    refine ⟨Equiv.swap 0 1, (Equiv.swap 0 1).bijective, fun i => ?_⟩
    rcases i with _ | _ | i
    · rfl
    · rfl
    · rw [Equiv.swap_apply_of_ne_of_ne (by omega) (by omega)]
      rfl
  | trans _ _ ih ih' =>
    obtain ⟨f, hf, hget⟩ := ih
    obtain ⟨f', hf', hget'⟩ := ih'
    exact ⟨f' ∘ f, hf'.comp hf, fun i => (hget' (f i)).trans (hget i)⟩

namespace Lowering
variable {s : Settings} {declared declared' : List Declaration}

/-- Among candidates with distinct names only those that are taken fall out. -/
theorem fresh_of_nodup {candidates : List Declaration}
    (h : (candidates.map Declaration.qualifiedName).Nodup) (taken : List String) :
    fresh taken candidates = candidates.filter fun d => d.qualifiedName ∉ taken := by
  induction candidates generalizing taken with
  | nil => rfl
  | cons d rest ih =>
    obtain ⟨hd, hrest⟩ := List.nodup_cons.mp h
    unfold fresh
    split
    · rename_i htaken
      rw [ih hrest, List.filter_cons_of_neg (by simpa using htaken)]
    · rename_i hfree
      rw [ih hrest, List.filter_cons_of_pos (by simpa using hfree)]
      congr 1
      apply List.filter_congr
      intro w hw
      have hne : w.qualifiedName ≠ d.qualifiedName := fun h => hd (h ▸ List.mem_map_of_mem hw)
      simp [hne]

theorem nodup_candidates (v : Vocabulary) (suffix : String)
    (hnames : (declared.map Declaration.qualifiedName).Nodup) (hnonempty : ∀ d ∈ declared, d.name ≠ "") :
    ((declared.filterMap fun d => d.wrapper? v suffix).map Declaration.qualifiedName).Nodup := by
  rw [List.Nodup, List.pairwise_map] at hnames ⊢
  rw [List.pairwise_filterMap]
  apply hnames.imp_of_mem
  intro d e hd he hne w hw x hx hsame
  rw [Declaration.wrapper?_qualifiedName (hnonempty d hd) hw,
    Declaration.wrapper?_qualifiedName (hnonempty e he) hx] at hsame
  exact hne ((String.append_left_inj suffix).mp hsame)

/-- The same wrappers join, whatever the order of the declarations. -/
theorem wrappers_perm (hperm : declared.Perm declared')
    (hnames : (declared.map Declaration.qualifiedName).Nodup)
    (hnonempty : ∀ d ∈ declared, d.name ≠ "") :
    (wrappers s declared).Perm (wrappers s declared') := by
  have hnames' := (hperm.map Declaration.qualifiedName).nodup hnames
  have hnonempty' : ∀ d ∈ declared', d.name ≠ "" := fun d hd => hnonempty d (hperm.mem_iff.mpr hd)
  unfold wrappers
  split
  · rw [fresh_of_nodup (nodup_candidates _ _ hnames hnonempty),
      fresh_of_nodup (nodup_candidates _ _ hnames' hnonempty')]
    have hsame : ∀ d : Declaration, d.qualifiedName ∉ declared.map Declaration.qualifiedName ↔
        d.qualifiedName ∉ declared'.map Declaration.qualifiedName :=
      fun d => not_congr (hperm.map Declaration.qualifiedName).mem_iff
    simp only [hsame]
    exact (hperm.filterMap _).filter _
  · exact .nil

end Lowering

/-- The same program with its routines in another order: the second graph has all routines of the first one under
other numbers, and no others. -/
theorem CallGraph.ofProgram_of_perm (s : Settings) {p p' : Program}
    (hperm : p.routines.Perm p'.routines)
    (hnames : (p.routines.map Declaration.qualifiedName).Nodup)
    (hnonempty : ∀ d ∈ p.routines, d.name ≠ "") :
    ∃ g g' f, ofProgram s p = .ok g ∧ ofProgram s p' = .ok g' ∧ g'.size = g.size ∧
      Function.Surjective f ∧ g.Embeds f g' := by
  have hnames' := (hperm.map Declaration.qualifiedName).nodup hnames
  have hall := hperm.append (Lowering.wrappers_perm (s := s) hperm hnames hnonempty)
  obtain ⟨f, hf, hget⟩ := exists_positions_of_perm hall
  have hplaces : Lowering.Places f (p.routines ++ Lowering.wrappers s p.routines)
      (p'.routines ++ Lowering.wrappers s p'.routines) := ⟨hf.injective, hget⟩
  have hembeds := hplaces.embeds (v := s.vocabulary) (Lowering.nodup_names hnames s)
    (Lowering.nodup_names hnames' s) p.routines.length p'.routines.length
    fun _ _ _ _ _ k _ _ _ => hf.surjective k
  refine ⟨_, _, f, ofProgram_of_nodup s hnames, ofProgram_of_nodup s hnames', ?_, hf.surjective,
    hembeds⟩
  simpa [size, Lowering.graph] using hall.length_eq.symm

namespace CallGraph.Embeds
variable {f : RoutineId → RoutineId} {g g' : CallGraph} (h : g.Embeds f g')
include h

/-- A routine is reported on alike when its callees have the same expansions. -/
theorem expandedReport (hsize : g'.size = g.size) (rules : Rules) (id : RoutineId) :
    g'.expandedReport rules (f id) = g.expandedReport rules id := by
  unfold CallGraph.expandedReport
  cases hr : g.routine? id with
  | none => rw [eq_none_of_rel (h.routine? id) hr]
  | some r =>
    obtain ⟨r', hr', hsame⟩ := eq_some_of_rel (h.routine? id) hr
    have hid : r'.id = f r.id := by rw [hsame]
    have hsites : r'.sites = r.sites.map (Site.renumber f) := by rw [hsame]
    have hexpansion : ∀ q, g'.expansion (f q) = (g.expansion q).renumber f := by
      intro q
      rw [expansion, expansion, hsize]
      exact h.unroll g.size q
    simp only [hr', hid, hsites]
    rw [← Detection.reportOf_renumbered f rules hsame, List.map_map, List.map_map]
    congr 1
    apply List.map_congr_left
    intro s _
    simp only [Function.comp_apply, Detection.renumber, Site.inlined_renumber f s r.id hexpansion]

variable (hf : Function.Surjective f) (hg : g.Indexed) (hg' : g'.Indexed)
include hf hg hg'

theorem bodies_perm : (g.bodies.map f).Perm g'.bodies := by
  rw [List.perm_ext_iff_of_nodup (hg.nodup_bodies.map h.injective) hg'.nodup_bodies]
  intro q
  obtain ⟨id, rfl⟩ := hf q
  rw [List.mem_map_of_injective h.injective, hg.mem_bodies_iff, hg'.mem_bodies_iff, h.hasBody]

theorem called_iff (id : RoutineId) :
    (∃ b ∈ g'.bodies, Relation.TransGen g'.Calls b (f id)) ↔
      ∃ b ∈ g.bodies, Relation.TransGen g.Calls b id := by
  constructor
  · rintro ⟨q, hq, hr⟩
    obtain ⟨b, hb, rfl⟩ := List.mem_map.mp ((h.bodies_perm hf hg hg').mem_iff.mpr hq)
    obtain ⟨callee, hsame, hcall⟩ := h.exists_of_transGen hr
    exact ⟨b, hb, h.injective hsame ▸ hcall⟩
  · rintro ⟨b, hb, hr⟩
    exact ⟨f b, (h.bodies_perm hf hg hg').mem_iff.mp (List.mem_map_of_mem hb), h.transGen_calls hr⟩

end CallGraph.Embeds

theorem FirstWrite.size_eq_of_bijective {κ α : Type} [DecidableEq κ] {m m' : FirstWrite κ α}
    {f : κ → κ} (hf : Function.Bijective f)
    (h : ∀ k, m'.contains (f k) = true ↔ m.contains k = true) : m'.size = m.size := by
  have hkeys (k : κ) : m'.contains k = true ↔ k ∈ m.keys.map f := by
    obtain ⟨k, rfl⟩ := hf.surjective k
    rw [List.mem_map_of_injective hf.injective]
    exact (h k).trans contains_iff_mem_keys
  have hsize := size_eq_length (m.nodup_keys.map hf.injective) hkeys
  simpa [keys, size] using hsize

/-- An answer that does not depend on how routines are divided among jobs and how these take turns: the analysis by one
worker gives it, and so does every schedule that comes to an end without being cancelled. -/
structure CallGraph.Answers (g : CallGraph) (rules : Rules) (a : AnalysisResult) : Prop where
  sequential : analyze g rules false = .ok a
  scheduled : ∀ shares p, shares.flatten.Perm g.bodies →
    Parallel.Reaches g rules (Parallel.start shares) p →
    match p.outcome g with
    | none => ∃ j ∈ p.jobs, (j.step g rules p.cancelled p.cache).isSome = true
    | some (.error f) => f = .cancelled ∧ p.cancelled = true
    | some (.ok b) => b = a

theorem CallGraph.Acyclic.answers {g : CallGraph} (hg : g.Acyclic) (rules : Rules) :
    ∃ c : SummaryCache,
      (∀ id, c.contains id = true ↔ ∃ b ∈ g.bodies, Relation.TransGen g.Calls b id) ∧
      g.Answers rules
        ⟨Report.sort (g.bodies.map (g.expandedReport rules)).flatten, g.bodies.length, c.size⟩ := by
  obtain ⟨reports, u, done, heach, hone, hids, hreports⟩ := Parallel.reaches_one_job g rules
  have hsingle := hone.sound hg (Parallel.sound_start (by simp))
  have hall : reports = g.bodies.map (g.expandedReport rules) := by
    rw [← hreports, ← hids, List.map_map]
    apply List.map_congr_left
    intro e he
    exact (hsingle.jobs _ (.head _)).reports e (List.mem_reverse.mp he)
  have hcontains := Parallel.contains_of_done hsingle rfl
  refine ⟨u.cache, hcontains, by simp [analyze, checkAll_of_each heach, hall], ?_⟩
  intro shares p hshares hreach
  have hp := hreach.sound hg (Parallel.sound_start hshares)
  have hsize : p.jobs.all Job.isDone = true → p.cache.size = u.cache.size := fun hdone =>
    FirstWrite.size_eq_of_contains fun id =>
      (Parallel.contains_of_done hp hdone id).trans (hcontains id).symm
  have houtcome := hp.outcome hall hsize
  revert houtcome
  cases p.outcome g with
  | none => exact id
  | some result =>
    cases result with
    | error f => exact id
    | ok b => exact fun h => hall ▸ h.2

/-- Diagnostics that sorting does not tell apart have the same file, start and code. -/
theorem Diagnostic.same_of_order_eq {d e : Diagnostic} (h : order d e = .eq) :
    d.file = e.file ∧ d.start = e.start ∧ d.code = e.code := by
  simpa [order, compareLex, compareOn, Ordering.then_eq_eq] using h

/-- Declaring the routines of a program in another order, when their names are distinct and not empty and no routine of
the graph calls itself. Both analyses succeed, with any number of jobs. They report the same diagnostics, check as many
routines and cache as many summaries; and where no two diagnostics share file, start and code, they report them in the
same order. -/
theorem declaration_order_irrelevant (s : Settings) {p p' : Program}
    (hperm : p.routines.Perm p'.routines)
    (hnames : (p.routines.map Declaration.qualifiedName).Nodup)
    (hnonempty : ∀ d ∈ p.routines, d.name ≠ "")
    (hacyclic : ∀ g, CallGraph.ofProgram s p = .ok g → g.Acyclic) :
    ∃ g g' a a', CallGraph.ofProgram s p = .ok g ∧ CallGraph.ofProgram s p' = .ok g' ∧
      analyzeProgram s p false = .ok a ∧ analyzeProgram s p' false = .ok a' ∧
      g.Answers s.rules a ∧ g'.Answers s.rules a' ∧
      a'.report.Perm a.report ∧ a'.checked = a.checked ∧ a'.cached = a.cached ∧
      ((a.report.Pairwise fun d e => ¬ (d.file = e.file ∧ d.start = e.start ∧ d.code = e.code)) →
        a'.report = a.report) := by
  obtain ⟨g, g', f, hok, hok', hsize, hf, hembeds⟩ :=
    CallGraph.ofProgram_of_perm s hperm hnames hnonempty
  have hg := hacyclic g hok
  obtain ⟨c, hc, hanswers⟩ := hg.answers s.rules
  obtain ⟨c', hc', hanswers'⟩ := (hembeds.acyclic hf hg).answers s.rules
  have hbodies := hembeds.bodies_perm hf (CallGraph.ofProgram_indexed hok)
    (CallGraph.ofProgram_indexed hok')
  have hreports : (g'.bodies.map (g'.expandedReport s.rules)).Perm
      (g.bodies.map (g.expandedReport s.rules)) := by
    refine (hbodies.symm.map _).trans (.of_eq ?_)
    rw [List.map_map]
    exact List.map_congr_left fun id _ => hembeds.expandedReport hsize s.rules id
  have hjoined := hreports.flatten
  refine ⟨g, g', _, _, hok, hok', ?_, ?_, hanswers, hanswers', ?_, ?_, ?_, fun hkeys => ?_⟩
  · simp only [analyzeProgram, hok, Bind.bind, Except.bind, hanswers.sequential]
  · simp only [analyzeProgram, hok', Bind.bind, Except.bind, hanswers'.sequential]
  · exact (Report.sort_perm _).trans (hjoined.trans (Report.sort_perm _).symm)
  · simpa using hbodies.length_eq.symm
  · exact FirstWrite.size_eq_of_bijective ⟨hembeds.injective, hf⟩ fun id =>
      (hc' (f id)).trans ((hembeds.called_iff hf (CallGraph.ofProgram_indexed hok)
        (CallGraph.ofProgram_indexed hok') id).trans (hc id).symm)
  · have hdistinct := hkeys.imp fun hne heq => hne (Diagnostic.same_of_order_eq heq)
    have hsame := Report.sort_eq_of_perm ((Report.sort_perm _).trans hjoined.symm) hdistinct
    rw [← hsame]
    exact List.mergeSort_of_pairwise (Report.sort_pairwise _)

open Scenario in
/-- A marked routine next to one that has the name of its wrapper, and a routine whose wrapper is generated. -/
def markedRoutines : List Declaration :=
  [routine "Main" none [] none [provide "Logger" 1, call "Load" 2 [], call "JobScoped" 3 []],
    routine "Job" (some "Scope") [] none [provide "Logger" 4],
    routine "JobScoped" none [] none [call "Job" 5 []],
    routine "Load" none [scopedParameter "logger" "Logger"] none [provide "Logger" 6]]

/-- The graph of these routines; the wrapper of the last one comes behind them. -/
def markedGraph : CallGraph :=
  Lowering.graph {} 4 (markedRoutines ++ Lowering.wrappers {} markedRoutines)

theorem declaration_order_irrelevant_marked :
    markedRoutines.Perm markedRoutines.reverse ∧
    (markedRoutines.map Declaration.qualifiedName).Nodup ∧ (∀ d ∈ markedRoutines, d.name ≠ "") ∧
    (∀ g, CallGraph.ofProgram {} ⟨markedRoutines⟩ = .ok g → g.Acyclic) ∧
    ∃ g' a a', CallGraph.ofProgram {} ⟨markedRoutines.reverse⟩ = .ok g' ∧
      markedGraph.Answers {} a ∧ g'.Answers {} a' ∧ a'.report = a.report ∧
      a.report.map Diagnostic.code = [9001] ∧ a'.checked = 5 ∧ a'.cached = a.cached := by
  have hperm : (⟨markedRoutines⟩ : Program).routines.Perm (⟨markedRoutines.reverse⟩ : Program).routines :=
    (List.reverse_perm _).symm
  have hnames : (markedRoutines.map Declaration.qualifiedName).Nodup := by decide
  have hnonempty : ∀ d ∈ markedRoutines, d.name ≠ "" := by decide
  have hok : CallGraph.ofProgram {} ⟨markedRoutines⟩ = .ok markedGraph :=
    CallGraph.ofProgram_of_nodup {} hnames
  have hacyclic : ∀ g, CallGraph.ofProgram {} ⟨markedRoutines⟩ = .ok g → g.Acyclic := by
    intro g hg
    obtain rfl := Except.ok.inj (hok.symm.trans hg)
    have hdescends : markedGraph.descends (List.range 5) (fun id => [2, 0, 1, 0, 1].getD id 0) =
        true := by decide
    exact CallGraph.acyclic_of_descends hdescends
  obtain ⟨g, g', a, a', hg, hg', ha, _, hanswers, hanswers', _, hchecked, hcached, hsame⟩ :=
    declaration_order_irrelevant {} hperm hnames hnonempty hacyclic
  obtain rfl := Except.ok.inj (hok.symm.trans hg)
  -- a call of the routine with a wrapper provides what the caller has provided
  obtain ⟨d, v, hcheck, hcode⟩ : ∃ d v,
      checkAll markedGraph {} false {} markedGraph.bodies = (.ok [d], v) ∧ d.code = 9001 :=
    ⟨_, _, rfl, rfl⟩
  obtain rfl : (⟨Report.sort [d], 5, v.cache.size⟩ : AnalysisResult) = a := by
    have hanalyze := hanswers.sequential
    simp only [analyze, hcheck] at hanalyze
    exact Except.ok.inj hanalyze
  refine ⟨hperm, hnames, hnonempty, hacyclic, g', _, a', hg', hanswers, hanswers', hsame ?_, ?_,
    hchecked, hcached⟩
  · simp [Report.sort]
  · simp [Report.sort, hcode]

end AmbientScope
