import AmbientScope.Proofs.OneJob
import AmbientScope.Proofs.Placements
import AmbientScope.Proofs.RenumberedRuns
import AmbientScope.Proofs.WrapperCalls
import AmbientScope.Scenario.Basic

/-!
# Adding wrappers

Wrappers are checked after all declared routines and are called by none of them, unless a body names one. So the graph
with wrappers has the graph without them as its first part, and its analysis starts with the whole analysis without
them: no check of a declared routine can tell the difference, cycles or not.
-/

set_option autoImplicit false

namespace AmbientScope

namespace Lowering
variable {xs ws : List Declaration} {v : Vocabulary}

theorem callee?_append {name : String} (h : ∀ w ∈ ws, w.qualifiedName ≠ name) :
    callee? (xs ++ ws) name = callee? xs name := by
  have hnone : ws.findIdx? (·.qualifiedName == name) = none := by
    rw [List.findIdx?_eq_none_iff]
    intro w hw
    simpa using h w hw
  unfold callee?
  rw [List.findIdx?_append, hnone]
  cases hfind : xs.findIdx? (·.qualifiedName == name) with
  | none => rfl
  | some i =>
    obtain ⟨hlt, _⟩ := List.findIdx?_eq_some_iff_getElem.mp hfind
    simp [List.getElem?_append_left hlt]

/-- No call of these bodies names one of the declarations. -/
def Ignore (xs ws : List Declaration) : Prop :=
  ∀ d ∈ xs, ∀ c ∈ Operation.optionCalls false d.body, ∀ w ∈ ws,
    c.1.target.qualified ≠ w.qualifiedName

theorem sites_append {body : Option Operation}
    (h : ∀ c ∈ Operation.optionCalls false body, ∀ w ∈ ws,
      c.1.target.qualified ≠ w.qualifiedName) :
    sites v (xs ++ ws) body = sites v xs body := by
  apply List.ext_getElem?
  intro i
  rw [sites, sites, List.getElem?_mapIdx, List.getElem?_mapIdx]
  cases hc : (Operation.optionCalls false body)[i]? with
  | none => rfl
  | some c =>
    have hcallee : callee? (xs ++ ws) c.1.target.qualified = callee? xs c.1.target.qualified := by
      apply callee?_append
      intro w hw hname
      exact h c (List.mem_of_getElem? hc) w hw hname.symm
    simp only [Option.map_some, site, classify, hcallee]

theorem graph_append (declared : Nat) (h : Ignore xs ws) :
    (graph v declared (xs ++ ws)).routines =
      (graph v declared xs).routines ++
        ws.mapIdx fun i w => routine v (xs ++ ws) declared (i + xs.length) w := by
  change (xs ++ ws).mapIdx _ = xs.mapIdx _ ++ _
  rw [List.mapIdx_append]
  congr 1
  apply List.ext_getElem?
  intro i
  rw [List.getElem?_mapIdx, List.getElem?_mapIdx]
  cases hd : xs[i]? with
  | none => rfl
  | some d => simp only [Option.map_some, routine, sites_append (h d (List.mem_of_getElem? hd))]

/-- Positions behind the first list move back by the length of the second one. -/
def past (n k i : Nat) : Nat := if i < n then i else i + k

theorem places_append (xs ws : List Declaration) :
    Places (past xs.length ws.length) xs (xs ++ ws) where
  injective := by
    intro i j hij
    unfold past at hij
    split at hij <;> split at hij <;> omega
  getElem? := by
    intro i
    unfold past
    split
    · rename_i hlt
      exact List.getElem?_append_left hlt
    · rename_i hge
      have hout : (xs ++ ws).length ≤ i + ws.length := by
        rw [List.length_append]
        omega
      rw [List.getElem?_eq_none hout, List.getElem?_eq_none (Nat.le_of_not_lt hge)]

theorem Ignore.embeds (h : Ignore xs ws) (declared : Nat)
    (hnames : ((xs ++ ws).map Declaration.qualifiedName).Nodup) :
    (graph v declared xs).Embeds (past xs.length ws.length) (graph v declared (xs ++ ws)) := by
  have hxs : (xs.map Declaration.qualifiedName).Nodup := by
    rw [List.map_append] at hnames
    exact hnames.of_append_left
  apply (places_append xs ws).embeds hxs hnames
  intro d hd c hc _ k e he hname
  rcases Nat.lt_or_ge k xs.length with hlt | hge
  · exact ⟨k, if_pos hlt⟩
  · rw [List.getElem?_append_right hge] at he
    exact absurd hname.symm (h d hd c hc e (List.mem_of_getElem? he))

theorem body_of_mem_wrappers {s : Settings} {declared : List Declaration} {w : Declaration}
    (h : w ∈ wrappers s declared) : w.body.isSome = true := by
  obtain ⟨d, _, hw⟩ := exists_of_mem_wrappers h
  rw [(Declaration.of_wrapper? hw).1]
  rfl

end Lowering

/-- The second graph is the first one with wrappers added behind. -/
structure CallGraph.Extended (g g' : CallGraph) (added : List Routine) : Prop where
  routines : g'.routines = g.routines ++ added
  declared : ∀ r ∈ g.routines, r.synthesized = false
  synthesized : ∀ r ∈ added, r.synthesized = true
  bodies : g'.bodies = g.bodies ++ added.map Routine.id

/-- The check of a routine reports the same in both analyses, when the same routines have been checked before. -/
def SameCheck (rules : Rules) (g g' : CallGraph) (before : List RoutineId) (id : RoutineId) : Prop :=
  ∃ earlier report v v' u u', checkAll g rules false {} before = (.ok earlier, v) ∧
    checkAll g' rules false {} before = (.ok earlier, v') ∧
    check g rules false v id = (.ok report, u) ∧ check g' rules false v' id = (.ok report, u')

namespace Lowering
variable {xs ws : List Declaration} {v : Vocabulary} (h : Ignore xs ws)
include h

theorem Ignore.extended (hbody : ∀ w ∈ ws, w.body.isSome = true) :
    (graph v xs.length xs).Extended (graph v xs.length (xs ++ ws))
      (ws.mapIdx fun i w => routine v (xs ++ ws) xs.length (i + xs.length) w) := by
  have hadded : ∀ r ∈ ws.mapIdx fun i w => routine v (xs ++ ws) xs.length (i + xs.length) w,
      r.synthesized = true ∧ r.hasBody = true := by
    intro r hr
    obtain ⟨i, hi, rfl⟩ := List.mem_mapIdx.mp hr
    exact ⟨by simp [routine], hbody _ (List.getElem_mem hi)⟩
  refine ⟨graph_append xs.length h, ?_, fun r hr => (hadded r hr).1, ?_⟩
  · intro r hr
    obtain ⟨i, hi, rfl⟩ := List.mem_mapIdx.mp hr
    simpa [routine] using hi
  · rw [CallGraph.bodies, CallGraph.bodies, graph_append xs.length h, List.filter_append,
      List.map_append, List.filter_eq_self.mpr fun r hr => (hadded r hr).2]

omit h in
theorem map_past_of_bodies (k : Nat) {ids : List RoutineId}
    (hids : ∀ id ∈ ids, id ∈ (graph v xs.length xs).bodies) : ids.map (past xs.length k) = ids := by
  have hkeep : ∀ id ∈ ids, past xs.length k id = id := by
    intro id hid
    have hbody := hids id hid
    rw [(graph_indexed v xs.length xs).bodies_eq_filter, List.mem_filter, List.mem_range] at hbody
    apply if_pos
    simpa [CallGraph.size, graph] using hbody.1
  rw [List.map_congr_left hkeep, List.map_id']

theorem Ignore.checkEach (hnames : ((xs ++ ws).map Declaration.qualifiedName).Nodup) (rules : Rules)
    {ids : List RoutineId} (hids : ∀ id ∈ ids, id ∈ (graph v xs.length xs).bodies) :
    ∃ reports u u', checkEach (graph v xs.length xs) rules false {} ids = (.ok reports, u) ∧
      checkEach (graph v xs.length (xs ++ ws)) rules false {} ids = (.ok reports, u') ∧
      u.Rests (past xs.length ws.length) u' := by
  obtain ⟨reports, u, u', heach, heach', hu⟩ :=
    checkEach_carried (h.embeds (v := v) xs.length hnames) rules ids (View.Rests.empty _)
  rw [map_past_of_bodies _ hids] at heach'
  exact ⟨reports, u, u', heach, heach', hu⟩

theorem Ignore.sameCheck (hnames : ((xs ++ ws).map Declaration.qualifiedName).Nodup) (rules : Rules)
    {before after : List RoutineId} {id : RoutineId}
    (hbodies : (graph v xs.length xs).bodies = before ++ id :: after) :
    SameCheck rules (graph v xs.length xs) (graph v xs.length (xs ++ ws)) before id := by
  obtain ⟨reports, v₁, v₂, heach, heach', hv⟩ :=
    h.checkEach (v := v) hnames rules fun q (hq : q ∈ before) => by simp [hbodies, hq]
  obtain ⟨report, u₁, u₂, hcheck, hcheck', _⟩ :=
    check_carried (h.embeds (v := v) xs.length hnames) rules hv id
  have hid : [id].map (past xs.length ws.length) = [id] := by
    apply map_past_of_bodies (v := v)
    simp [hbodies]
  rw [(List.cons.inj hid).1] at hcheck'
  exact ⟨reports.flatten, report, v₁, v₂, u₁, u₂, checkAll_of_each heach, checkAll_of_each heach',
    hcheck, hcheck'⟩

end Lowering

/-- What the analysis of a graph with more wrappers has in common with the one without, and what it adds. -/
structure AddsWrappers (rules : Rules) (g g' : CallGraph) (added : List Routine) (a b : AnalysisResult)
    (more : Report) : Prop where
  graph : g.Extended g' added
  declared : ∀ before id after, g.bodies = before ++ id :: after → SameCheck rules g g' before id
  /-- The wrappers are checked behind the declared routines, and this is what they report. -/
  wrappers : ∃ earlier v u, checkAll g' rules false {} g.bodies = (.ok earlier, v) ∧
    checkAll g' rules false v (added.map Routine.id) = (.ok more, u)
  report : b.report.Perm (a.report ++ more)
  checked : b.checked = a.checked + added.length

/-- A program with distinct names in which no body calls a wrapper of the graph, analyzed with one job and otherwise
equal settings. Adding the wrappers leaves all declared routines as they are, and their checks report the same. The
analysis reports the same diagnostics and those of the wrappers, and checks so many routines more. -/
theorem wrappers_leave_declared_alone (s : Settings) {p : Program}
    (hnames : (p.routines.map Declaration.qualifiedName).Nodup)
    (hcalls : ∀ d ∈ p.routines, ∀ c ∈ Operation.optionCalls false d.body,
      ∀ w ∈ Lowering.wrappers { s with synthesizeWrappers := true } p.routines,
        c.1.target.qualified ≠ w.qualifiedName) :
    ∃ g g' added a b more,
      CallGraph.ofProgram { s with synthesizeWrappers := false } p = .ok g ∧
      CallGraph.ofProgram { s with synthesizeWrappers := true } p = .ok g' ∧
      g.routines.map Routine.name = p.routines.map Declaration.qualifiedName ∧
      analyzeProgram { s with synthesizeWrappers := false } p false = .ok a ∧
      analyzeProgram { s with synthesizeWrappers := true } p false = .ok b ∧
      AddsWrappers s.rules g g' added a b more := by
  have hok : CallGraph.ofProgram { s with synthesizeWrappers := false } p =
      .ok (Lowering.graph s.vocabulary p.routines.length p.routines) := by
    rw [CallGraph.ofProgram_of_nodup _ hnames]
    simp [Lowering.wrappers, Settings.vocabulary]
  have hok' : CallGraph.ofProgram { s with synthesizeWrappers := true } p =
      .ok (Lowering.graph s.vocabulary p.routines.length (p.routines ++
        Lowering.wrappers { s with synthesizeWrappers := true } p.routines)) :=
    CallGraph.ofProgram_of_nodup _ hnames
  have hignore : Lowering.Ignore p.routines
      (Lowering.wrappers { s with synthesizeWrappers := true } p.routines) := hcalls
  have hall := Lowering.nodup_names hnames { s with synthesizeWrappers := true }
  have hextended := hignore.extended (v := s.vocabulary) fun _ => Lowering.body_of_mem_wrappers
  obtain ⟨reports, _, v, heach, heach', _⟩ :=
    hignore.checkEach (v := s.vocabulary) hall s.rules fun _ hid => hid
  obtain ⟨more, u, hmore⟩ := Parallel.checkEach_succeeds _ s.rules v (List.map Routine.id _)
  have hboth := checkEach_append heach' hmore
  rw [← hextended.bodies] at hboth
  refine ⟨_, _, _, _, _, more.flatten, hok, hok', Lowering.names_graph _ _ _,
    analyzeProgram_of_graph hok heach, analyzeProgram_of_graph hok' hboth, hextended,
    fun before id after => hignore.sameCheck hall s.rules,
    ⟨_, v, u, checkAll_of_each heach', checkAll_of_each hmore⟩, ?_, ?_⟩
  · rw [List.flatten_append]
    exact (Report.sort_perm _).trans ((Report.sort_perm _).symm.append_right _)
  · rw [hextended.bodies, List.length_append, List.length_map]

open Scenario in
/-- Two routines that call each other, of which one has a wrapper; the wrapper of the third would have the name of the
last one. -/
def mutualRoutines : List Declaration :=
  [routine "Ping" none [] none [provide "Logger" 1, call "Pong" 2 []],
    routine "Pong" none [scopedParameter "config" "Config"] (some "Logger")
      [provide "Logger" 3, call "Ping" 4 []],
    routine "Load" none [scopedParameter "logger" "Logger"] none [resolve "Logger" 5],
    routine "LoadScoped" none [] none [call "Load" 6 []]]

def mutualGraph (added : Bool) : CallGraph :=
  Lowering.graph {} 4 (mutualRoutines ++
    Lowering.wrappers { synthesizeWrappers := added } mutualRoutines)

theorem wrappers_leave_declared_alone_mutual :
    (mutualRoutines.map Declaration.qualifiedName).Nodup ∧
    (∀ d ∈ mutualRoutines, ∀ c ∈ Operation.optionCalls false d.body,
      ∀ w ∈ Lowering.wrappers {} mutualRoutines, c.1.target.qualified ≠ w.qualifiedName) ∧
    ∃ w a b more,
      CallGraph.ofProgram { synthesizeWrappers := false } ⟨mutualRoutines⟩ = .ok (mutualGraph false) ∧
      CallGraph.ofProgram {} ⟨mutualRoutines⟩ = .ok (mutualGraph true) ∧
      analyzeProgram { synthesizeWrappers := false } ⟨mutualRoutines⟩ false = .ok a ∧
      analyzeProgram {} ⟨mutualRoutines⟩ false = .ok b ∧
      AddsWrappers {} (mutualGraph false) (mutualGraph true) [w] a b more ∧
      w.name = "App.Svc.PongScoped" ∧ more.map Diagnostic.code = [9001, 9001] := by
  have hnames : (mutualRoutines.map Declaration.qualifiedName).Nodup := by decide
  have hcalls : ∀ d ∈ mutualRoutines, ∀ c ∈ Operation.optionCalls false d.body,
      ∀ w ∈ Lowering.wrappers {} mutualRoutines, c.1.target.qualified ≠ w.qualifiedName := by
    decide
  obtain ⟨g, g', added, a, b, more, hg, hg', _, ha, hb, hadds⟩ :=
    wrappers_leave_declared_alone {} (p := ⟨mutualRoutines⟩) hnames hcalls
  have hoff : CallGraph.ofProgram { synthesizeWrappers := false } ⟨mutualRoutines⟩ =
      .ok (mutualGraph false) := CallGraph.ofProgram_of_nodup _ hnames
  have hon : CallGraph.ofProgram {} ⟨mutualRoutines⟩ = .ok (mutualGraph true) :=
    CallGraph.ofProgram_of_nodup _ hnames
  obtain rfl := Except.ok.inj (hoff.symm.trans hg)
  obtain rfl := Except.ok.inj (hon.symm.trans hg')
  obtain ⟨w, hw, hid, hname⟩ : ∃ w : Routine,
      (mutualGraph true).routines = (mutualGraph false).routines ++ [w] ∧
        w.id = 4 ∧ w.name = "App.Svc.PongScoped" := ⟨_, rfl, rfl, rfl⟩
  obtain rfl : [w] = added := List.append_cancel_left (hw.symm.trans hadds.graph.routines)
  obtain ⟨ds, ms, v', u', hds, hms, hcodes⟩ : ∃ ds ms v u,
      checkAll (mutualGraph true) {} false {} (mutualGraph false).bodies = (.ok ds, v) ∧
        checkAll (mutualGraph true) {} false v [4] = (.ok ms, u) ∧
        ms.map Diagnostic.code = [9001, 9001] := ⟨_, _, _, _, rfl, rfl, rfl⟩
  obtain ⟨_, v, u, hdeclared, hmore⟩ := hadds.wrappers
  obtain ⟨-, rfl⟩ := Prod.mk.inj (hdeclared.symm.trans hds)
  rw [List.map_singleton, hid] at hmore
  obtain rfl := Except.ok.inj (Prod.mk.inj (hmore.symm.trans hms)).1
  exact ⟨hnames, hcalls, w, a, b, more, hoff, hon, ha, hb, hadds, hname, hcodes⟩

end AmbientScope
