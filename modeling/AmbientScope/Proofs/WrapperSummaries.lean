import AmbientScope.Proofs.Placements
import AmbientScope.Proofs.SessionExactness
import AmbientScope.Proofs.WrapperCalls
import AmbientScope.Scenario.Basic

/-!
# Summaries of wrappers

A wrapper does what its routine does, between the resolution of the scoped parameters and the provision of the result.
Its own calls are none of them hidden; those for frozen parameters and for freezing count for nothing. The effects of
the routine stand there as they are in its own summary.
-/

set_option autoImplicit false

namespace AmbientScope

namespace Lowering
variable {v : Vocabulary} {routines : List Declaration} {id : RoutineId} {f : RoutineId → Summary}

/-- The effects of calls that stand behind so many others of the routine. -/
def contributed (v : Vocabulary) (routines : List Declaration) (id : RoutineId)
    (f : RoutineId → Summary) (n : Nat) (cs : List (Call × Bool)) : List Effect :=
  (cs.mapIdx fun k c => site v routines (k + n) c).flatMap fun x => x.inlined id f

theorem contributed_cons (n : Nat) (c : Call × Bool) (cs : List (Call × Bool)) :
    contributed v routines id f n (c :: cs) =
      (site v routines n c).inlined id f ++ contributed v routines id f (n + 1) cs := by
  simp [contributed, List.mapIdx_cons, Nat.add_right_comm, Nat.add_assoc]

theorem contributed_append (n : Nat) (cs cs' : List (Call × Bool)) :
    contributed v routines id f n (cs ++ cs') =
      contributed v routines id f n cs ++ contributed v routines id f (n + cs.length) cs' := by
  simp [contributed, List.mapIdx_append, Nat.add_assoc, Nat.add_comm n]

theorem contributed_singleton (n : Nat) (c : Call × Bool) :
    contributed v routines id f n [c] = (site v routines n c).inlined id f := by
  simp [contributed]

theorem contributed_inert (n : Nat) {cs : List (Call × Bool)}
    (h : ∀ c ∈ cs, ∃ op, classify v routines c.1 = .inert op) :
    contributed v routines id f n cs = [] := by
  induction cs generalizing n with
  | nil => rfl
  | cons c rest ih =>
    obtain ⟨op, hop⟩ := h c (.head _)
    rw [contributed_cons, ih (n + 1) fun c' hc' => h c' (.tail _ hc'), List.append_nil]
    simp only [Site.inlined, site, hop]

theorem contributed_direct {α : Type} (n : Nat) (xs : List α) {call : α → Call × Bool}
    {action : α → Action}
    (h : ∀ x ∈ xs, classify v routines (call x).1 = .direct (action x) ∧ (call x).2 = false) :
    contributed v routines id f n (xs.map call) =
      xs.mapIdx fun k x => ⟨action x, false, .site id (k + n)⟩ := by
  induction xs generalizing n with
  | nil => rfl
  | cons x rest ih =>
    obtain ⟨hkind, hplain⟩ := h x (.head _)
    rw [List.map_cons, contributed_cons, ih (n + 1) fun y hy => h y (.tail _ hy),
      List.mapIdx_cons]
    simp [Site.inlined, site, Site.effect, hkind, hplain, Nat.add_right_comm, Nat.add_assoc]

theorem operation?_method_of_nodup
    (h : (ScopeOperation.all.map fun op => op.methodOf v.entry).Nodup) (op : ScopeOperation) :
    v.operation? (v.method op) = some op := by
  have hall : ∀ op', op' ∈ ScopeOperation.all := by
    intro op'
    cases op' <;> decide
  obtain ⟨op', hop, hsame⟩ := v.operation?_method op
  rw [hop, List.inj_on_of_nodup_map h (hall op') (hall op) hsame]

end Lowering

/-- The summary of the wrapper when the routine itself has the given one. -/
def Declaration.wrapperSummary (d : Declaration) (v : Vocabulary) (id : RoutineId)
    (own : Summary) : Summary :=
  let first := (d.paramsWith v .frozen).length
  let params := d.paramsWith v .scoped
  (params.mapIdx fun k p => ⟨.resolve ⟨p.type, none⟩, false, .site id (k + first)⟩) ++ own ++
    d.resultType?.toList.map fun type =>
      ⟨.provide ⟨type, none⟩, false, .site id (first + params.length + 1)⟩

namespace Lowering
variable {v : Vocabulary} {routines : List Declaration} {id : RoutineId} {f : RoutineId → Summary}

theorem contributed_wrapper {d w : Declaration} {suffix : String}
    (hw : d.wrapper? v suffix = some w)
    (hmethods : (ScopeOperation.all.map fun op => op.methodOf v.entry).Nodup) :
    contributed v routines id f 0 (Operation.optionCalls false w.body) =
      d.wrapperSummary v id ((site v routines ((d.paramsWith v .frozen).length +
        (d.paramsWith v .scoped).length) (d.plainCall d.methodName none)).inlined id f) := by
  have hkind (op : ScopeOperation) (type : Option String) :
      classify v routines (d.plainCall (v.method op) type).1 =
        (d.plainCall (v.method op) type).1.classOf op := by
    simp only [classify, Declaration.plainCall, operation?_method_of_nodup hmethods op]
  obtain ⟨freeze, hfreeze, hcalls⟩ := Declaration.calls_wrapper hw
  have hfrozen : ∀ c ∈ (d.paramsWith v .frozen).map fun p =>
      d.plainCall (v.method .resolveFrozen) (some p.type),
      ∃ op, classify v routines c.1 = .inert op := by
    intro c hc
    obtain ⟨p, _, rfl⟩ := List.mem_map.mp hc
    exact ⟨_, hkind .resolveFrozen _⟩
  have hfreezing : ∀ c ∈ freeze, ∃ op, classify v routines c.1 = .inert op := by
    intro c hc
    rw [hfreeze c hc]
    exact ⟨_, hkind .freeze _⟩
  -- the calls in front of each group give the numbers of its sites
  have hresolve (n : Nat) : contributed v routines id f n ((d.paramsWith v .scoped).map fun p =>
      d.plainCall (v.method .resolve) (some p.type)) = (d.paramsWith v .scoped).mapIdx fun k p =>
        ⟨.resolve ⟨p.type, none⟩, false, .site id (k + n)⟩ :=
    contributed_direct n _ fun p _ => ⟨hkind .resolve (some p.type), rfl⟩
  have hprovide (n : Nat) : contributed v routines id f n (d.resultType?.toList.map fun type =>
      d.plainCall (v.method .provide) (some type)) = d.resultType?.toList.map fun type =>
        ⟨.provide ⟨type, none⟩, false, .site id n⟩ := by
    rw [contributed_direct n _ fun type _ => ⟨hkind .provide (some type), rfl⟩]
    cases d.resultType? with
    | none => rfl
    | some type => simp [Declaration.plainCall, Call.valueKey]
  simp only [hcalls, contributed_append, contributed_inert _ hfrozen, contributed_inert _ hfreezing,
    List.nil_append, List.append_nil, List.length_append, List.length_map, List.length_singleton,
    Nat.zero_add, hresolve, hprovide, contributed_singleton, Declaration.wrapperSummary]

section Lowered
variable {declared : Nat} {d w : Declaration} {j : RoutineId} {suffix : String}
  (hnames : (routines.map Declaration.qualifiedName).Nodup) (hj : routines[j]? = some d)
  (hop : v.operation? d.methodName = none)
include hnames hj hop

theorem classify_own :
    classify v routines (d.plainCall d.methodName none).1 =
      if d.body.isSome then .call j else .external := by
  have hcallee : callee? routines d.qualifiedName = if d.body.isSome then some j else none := by
    split
    · rename_i hbody
      exact (callee?_eq_some_iff_getElem? hnames).mpr ⟨d, hj, rfl, hbody⟩
    · rename_i hbody
      rw [Option.eq_none_iff_forall_ne_some]
      intro k hk
      obtain ⟨e, he, hname, hsome⟩ := callee?_some hk
      obtain rfl := eq_of_qualifiedName hnames he hj hname
      obtain rfl := Option.some.inj (he.symm.trans hj)
      exact hbody hsome
  simp only [classify, Declaration.plainCall, hop, Declaration.qualified_methodName, hcallee]
  cases d.body <;> rfl

variable (hid : routines[id]? = some w) (hw : d.wrapper? v suffix = some w)
include hid hw

theorem calls_own (hbody : d.body.isSome = true) : (graph v declared routines).Calls id j := by
  obtain ⟨freeze, _, hcalls⟩ := Declaration.calls_wrapper hw
  have hmem : d.plainCall d.methodName none ∈ Operation.optionCalls false w.body := by
    simp [hcalls]
  obtain ⟨k, hk, hget⟩ := List.mem_iff_getElem.mp hmem
  have hsite : site v routines k (d.plainCall d.methodName none) ∈
      (graph v declared routines).sites id := by
    rw [sites_graph hid, sites, List.mem_mapIdx]
    exact ⟨k, hk, by rw [hget]⟩
  refine ⟨_, hsite, ?_⟩
  rw [site, classify_own hnames hj hop, if_pos hbody]

theorem expansion_wrapper
    (hmethods : (ScopeOperation.all.map fun op => op.methodOf v.entry).Nodup)
    (hacyclic : (graph v declared routines).AcyclicFrom id) :
    (graph v declared routines).expansion id = d.wrapperSummary v id
      (if d.body.isSome then (graph v declared routines).expansion j else []) := by
  have hboundary : (graph v declared routines).boundary? id = none := by
    rw [boundary?_graph hid, (Declaration.of_wrapper? hw).2]
    rfl
  have hown (n : Nat) :
      (site v routines n (d.plainCall d.methodName none)).inlined id
        (graph v declared routines).expansion =
      if d.body.isSome then (graph v declared routines).expansion j else [] := by
    simp only [Site.inlined, site, classify_own hnames hj hop]
    cases d.body with
    | none => rfl
    | some op =>
      exact (List.map_congr_left fun e _ => Effect.through_false e).trans (List.map_id' _)
  rw [CallGraph.expansion_eq hacyclic, Summary.bounded, hboundary, sites_graph hid]
  exact (contributed_wrapper hw hmethods).trans (by rw [hown])

end Lowered

end Lowering

/-- In the graph of a program and in all its sessions, a wrapper is summarized as the resolutions of the scoped
parameters, the summary of its routine, and the provision of the result. The operations of the entry point have
different names, the routine is none of them, and no cycle of calls can be reached from the wrapper. -/
theorem wrapper_summary {s : Settings} {p : Program} {g : CallGraph} {d w : Declaration}
    (hg : CallGraph.ofProgram s p = .ok g)
    (hmethods : (ScopeOperation.all.map fun op => op.methodOf s.entry).Nodup)
    (hd : d ∈ p.routines) (hop : ∀ op, s.vocabulary.method op ≠ d.methodName)
    (hw : d.wrapper? s.vocabulary s.wrapperSuffix = some w)
    (hmem : w ∈ Lowering.wrappers s p.routines) :
    ∃ id r j, g.lookup? w.qualifiedName = some id ∧ g.routine? id = some r ∧ r.synthesized = true ∧
      g.lookup? d.qualifiedName = some j ∧
      (g.AcyclicFrom id → ∃ own : Summary,
        (d.body.isSome = true → Session.Summarizes g j own) ∧
        (d.body.isSome = false → own = []) ∧
        Session.Summarizes g id (d.wrapperSummary s.vocabulary id own)) := by
  obtain ⟨hnames, rfl⟩ := CallGraph.ofProgram_eq_ok_iff.mp hg
  have hall := Lowering.nodup_names hnames s
  have hnone : s.vocabulary.operation? d.methodName = none := by
    rw [← Option.not_isSome_iff_eq_none, Vocabulary.operation?_isSome_iff]
    exact not_exists.mpr hop
  obtain ⟨i, hi⟩ := List.getElem?_of_mem hmem
  obtain ⟨j, hj⟩ := List.getElem?_of_mem hd
  have hwrapper :
      (p.routines ++ Lowering.wrappers s p.routines)[p.routines.length + i]? = some w := by
    simp [List.getElem?_append_right, hi]
  have horigin := Lowering.getElem?_declared hj (Lowering.wrappers s p.routines)
  refine ⟨p.routines.length + i, _, j, Lowering.lookup?_graph hall hwrapper,
    Lowering.routine?_graph hwrapper, by simp [Lowering.routine],
    Lowering.lookup?_graph hall horigin, ?_⟩
  intro hacyclic
  have hsummary := Session.summarizes_expansion hacyclic
  rw [Lowering.expansion_wrapper hall horigin hnone hwrapper hw hmethods hacyclic] at hsummary
  refine ⟨_, fun hbody => ?_, fun hbody => ?_, hsummary⟩
  · rw [if_pos hbody]
    apply Session.summarizes_expansion
    exact hacyclic.of_calls (Lowering.calls_own hall horigin hnone hwrapper hw hbody)
  · simp [hbody]

open Scenario in
/-- A routine with a freezing marker, a frozen parameter among scoped ones and a result. -/
def freezingRoutine : Declaration :=
  routine "Build" (some "FrozenScope")
    [scopedParameter "log" "Logger", ⟨"config", "Config", [markerAttribute "FrozenScope"]⟩,
      ⟨"path", "string", []⟩, scopedParameter "clock" "Clock"]
    (some "Settings") [resolve "Logger" 1, when (call "Load" 2 [])]

open Scenario in
def freezingProgram : Program :=
  ⟨[freezingRoutine, routine "Load" none [] none [provide "Config" 3]]⟩

/-- The graph of this program; the wrapper of the first routine is the last one. -/
def freezingGraph : CallGraph :=
  Lowering.graph {} 2
    (freezingProgram.routines ++ Lowering.wrappers {} freezingProgram.routines)

theorem wrapper_summary_freezing :
    CallGraph.ofProgram {} freezingProgram = .ok freezingGraph ∧
    (ScopeOperation.all.map fun op => op.methodOf ({} : Settings).entry).Nodup ∧
    freezingRoutine ∈ freezingProgram.routines ∧
    (∀ op, ({} : Vocabulary).method op ≠ freezingRoutine.methodName) ∧
    (∃ w ∈ Lowering.wrappers {} freezingProgram.routines, freezingRoutine.wrapper? {} "Scoped" = some w) ∧
    freezingGraph.AcyclicFrom 2 ∧
    Session.Summarizes freezingGraph 2
      [⟨.resolve ⟨"Logger", none⟩, false, .site 2 1⟩, ⟨.resolve ⟨"Clock", none⟩, false, .site 2 2⟩,
        ⟨.push "FrozenScope", false, .boundary 0⟩, ⟨.resolve ⟨"Logger", none⟩, false, .site 0 0⟩,
        ⟨.provide ⟨"Config", none⟩, true, .site 1 0⟩,
        ⟨.provide ⟨"Settings", none⟩, false, .site 2 4⟩] := by
  have hnames : (freezingProgram.routines.map Declaration.qualifiedName).Nodup := by decide
  have hok : CallGraph.ofProgram {} freezingProgram = .ok freezingGraph :=
    CallGraph.ofProgram_of_nodup {} hnames
  have hmethods : (ScopeOperation.all.map fun op => op.methodOf ({} : Settings).entry).Nodup := by
    decide
  have hd : freezingRoutine ∈ freezingProgram.routines := .head _
  have hop : ∀ op, ({} : Vocabulary).method op ≠ freezingRoutine.methodName := by
    intro op
    cases op <;> decide
  have hdescends : freezingGraph.descends [0, 1, 2] (fun id => [1, 0, 2].getD id 0) = true := by
    decide
  have hacyclic : freezingGraph.AcyclicFrom 2 :=
    CallGraph.acyclicFrom_of_descends hdescends (by decide)
  obtain ⟨w, hw, hwrappers, hlast⟩ : ∃ w, freezingRoutine.wrapper? {} "Scoped" = some w ∧
      Lowering.wrappers {} freezingProgram.routines = [w] ∧
      freezingGraph.lookup? w.qualifiedName = some 2 := ⟨_, rfl, rfl, rfl⟩
  have hmem : w ∈ Lowering.wrappers {} freezingProgram.routines := by simp [hwrappers]
  have hfirst : freezingGraph.lookup? freezingRoutine.qualifiedName = some 0 := rfl
  obtain ⟨id, _, j, hid, _, _, hj, hsummaries⟩ := wrapper_summary hok hmethods hd hop hw hmem
  obtain rfl : 2 = id := Option.some.inj (hlast.symm.trans hid)
  obtain rfl : 0 = j := Option.some.inj (hfirst.symm.trans hj)
  obtain ⟨own, hown, _, hwhole⟩ := hsummaries hacyclic
  -- a session that is asked at once
  have hanswer : Response.summary
      [⟨.push "FrozenScope", false, .boundary 0⟩, ⟨.resolve ⟨"Logger", none⟩, false, .site 0 0⟩,
        ⟨.provide ⟨"Config", none⟩, true, .site 1 0⟩] = .summary own :=
    hown rfl {} [] [] (by simp) 0
  obtain rfl := Response.summary.inj hanswer
  have hresult : freezingRoutine.resultType? = some "Settings" := by
    simp [Declaration.resultType?, freezingRoutine, Scenario.routine, Option.filter,
      Declaration.toLower_eq_void_iff]
  simp only [Declaration.wrapperSummary, hresult] at hwhole
  exact ⟨hok, hmethods, hd, hop, ⟨w, hmem, hw⟩, hacyclic, hwhole⟩

end AmbientScope
