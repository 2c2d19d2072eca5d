import AmbientScope.Proofs.Expansion
import AmbientScope.Proofs.Refusals

/-!
# Executions and expansions

A replay follows calls by name through the declarations, an expansion follows them by position through the graph. On
declarations with distinct names, and where neither a cycle nor a generated wrapper can be reached, they follow the same
calls: the pushes and provides of an execution are the effects of the expansion that are not hidden.
-/

set_option autoImplicit false

namespace AmbientScope

namespace Lowering
variable {routines : List Declaration} {id : RoutineId} {d : Declaration} {name : String}

theorem find?_some (h : Replay.find? routines name = some d) :
    ∃ i : Nat, routines[i]? = some d ∧ d.qualifiedName = name := by
  obtain ⟨hmem, hname⟩ := Replay.mem_of_find? h
  obtain ⟨i, hi⟩ := List.getElem?_of_mem hmem
  exact ⟨i, hi, hname⟩

theorem find?_eq (hnames : (routines.map Declaration.qualifiedName).Nodup)
    (hd : routines[id]? = some d) : Replay.find? routines d.qualifiedName = some d := by
  have hsome : (Replay.find? routines d.qualifiedName).isSome = true := by
    rw [Replay.find?, List.find?_isSome]
    exact ⟨d, List.mem_reverse.mpr (List.mem_of_getElem? hd), by simp⟩
  obtain ⟨e, he⟩ := Option.isSome_iff_exists.mp hsome
  obtain ⟨j, hj, hname⟩ := find?_some he
  obtain rfl := eq_of_qualifiedName hnames hj hd hname
  rw [he, ← hj, hd]

theorem exists_of_calls {v : Vocabulary} {declared : Nat} {callee : RoutineId}
    (h : (graph v declared routines).Calls id callee) : ∃ e, routines[callee]? = some e := by
  obtain ⟨s, hs, hk⟩ := h
  have hlt : id < routines.length := by
    simpa [CallGraph.size, graph] using CallGraph.lt_size_of_mem_sites hs
  rw [sites_graph (List.getElem?_eq_getElem hlt), sites] at hs
  obtain ⟨i, hi, rfl⟩ := List.mem_mapIdx.mp hs
  simp only [site, classify] at hk
  split at hk
  · rename_i op _
    cases op <;> simp [Call.classOf] at hk
  · split at hk
    · rename_i q hq
      obtain rfl : q = callee := by simpa using hk
      obtain ⟨e, he, _⟩ := callee?_some hq
      exact ⟨e, he⟩
    · simp at hk

end Lowering

/-- What an event of an execution is in an expansion, where scopes are not left. -/
def Event.visible : Event Call → Option (Event ValueKey)
  | .push label => some (.push label)
  | .pop => none
  | .provide c offset => some (.provide c.valueKey offset)

theorem Effect.event?_through (offset : UInt32) (callHidden : Bool) (e : Effect) :
    (e.through callHidden).event? offset = if callHidden then none else e.event? offset := by
  cases callHidden <;> simp [Effect.event?, Effect.through]

theorem Summary.filterMap_splice (offset : UInt32) (callHidden : Bool) (s : Summary) :
    (s.splice callHidden).filterMap (Effect.event? offset) =
      if callHidden then [] else s.filterMap (Effect.event? offset) := by
  rw [Summary.splice, List.filterMap_map]
  cases callHidden with
  | true => simp [Effect.event?_through]
  | false => simp

theorem Summary.filterMap_bounded (g : CallGraph) (id : RoutineId) (offset : UInt32) (s : Summary) :
    (Summary.bounded g id s).filterMap (Effect.event? offset) =
      ((g.boundary? id).map Event.push).toList ++ s.filterMap (Effect.event? offset) := by
  unfold Summary.bounded
  cases g.boundary? id <;> rfl

namespace Replay

theorem filterMap_scopedEvents (v : Vocabulary) (attrs : List String) (es : List (Event Call)) :
    (scopedEvents v attrs es).filterMap Event.visible =
      (((v.boundaryAttribute? attrs).map v.markerName).map Event.push).toList ++
        es.filterMap Event.visible := by
  unfold scopedEvents
  cases v.boundaryAttribute? attrs with
  | none => rfl
  | some attr => simp [Event.visible]

/-- What is done for sure at the sites of a list of calls is done by the sure calls of the list. -/
theorem flatMap_sure {xs : List (Call × Bool)} {site : Nat → Call × Bool → Site}
    {atSite : Site → List (Event ValueKey)} {atCall : Call → List (Event Call)}
    (h : ∀ i, ∀ x ∈ xs,
      atSite (site i x) = if x.2 then [] else (atCall x.1).filterMap Event.visible) :
    (xs.mapIdx site).flatMap atSite = ((Call.sure xs).flatMap atCall).filterMap Event.visible := by
  induction xs generalizing site with
  | nil => rfl
  | cons x rest ih =>
    have hrest := ih fun i y hy => h (i + 1) y (.tail _ hy)
    rw [List.mapIdx_cons, List.flatMap_cons, h 0 x (.head _), hrest]
    obtain ⟨c, hidden⟩ := x
    cases hidden <;> simp [Call.sure]

/-- One call does the same in an execution and in an expansion, if its callee does. -/
theorem filterMap_inlined {v : Vocabulary} {all : List Declaration} (index : Nat) (c : Call)
    (hidden : Bool) (id : RoutineId) (offset : UInt32) (summaryOf : RoutineId → Summary)
    {nested : String → UInt32 → List (Event Call)}
    (h : hidden = false → v.operation? c.target = none →
      (nested c.target.qualified offset).filterMap Event.visible =
        match Lowering.callee? all c.target.qualified with
        | some callee => (summaryOf callee).filterMap (Effect.event? offset)
        | none => []) :
    ((Lowering.site v all index (c, hidden)).inlined id summaryOf).filterMap
        (Effect.event? offset) =
      if hidden then [] else (callEvents v nested c offset).filterMap Event.visible := by
  unfold Site.inlined callEvents
  simp only [Lowering.site, Lowering.classify]
  cases hop : v.operation? c.target with
  | some op =>
    cases op <;> cases hidden <;> rfl
  | none =>
    cases hidden with
    | true => cases Lowering.callee? all c.target.qualified <;> simp [Summary.filterMap_splice]
    | false =>
      have hcallee := h rfl hop
      cases hfound : Lowering.callee? all c.target.qualified <;>
        simp_all [Summary.filterMap_splice]

section Expanded
variable {routines extra : List Declaration}
  (hnames : (routines.map Declaration.qualifiedName).Nodup)
include hnames

theorem events_of_not_callee {depth : Nat} {active : List String} {name : String}
    {reported : Option UInt32} (v : Vocabulary)
    (h : Lowering.callee? (routines ++ extra) name = none) :
    events v routines depth active name reported = [] := by
  cases depth with
  | zero => rfl
  | succ depth =>
    unfold events
    cases hfind : find? routines name with
    | none => rfl
    | some d =>
      cases hbody : d.body with
      | none => simp only [hbody]
      | some body =>
        obtain ⟨i, hi, rfl⟩ := Lowering.find?_some hfind
        rw [Lowering.callee?_eq hnames hi (by simp [hbody])] at h
        simp at h

variable {g : CallGraph} {v : Vocabulary} {declared : Nat}
  (hg : g = Lowering.graph v declared (routines ++ extra))
include hg

omit hnames in
theorem sites_declared {id : RoutineId} {d : Declaration} {body : Operation}
    (hd : routines[id]? = some d) (hbody : d.body = some body) :
    g.sites id = (body.calls false).mapIdx (Lowering.site v (routines ++ extra)) := by
  rw [hg, Lowering.sites_graph (Lowering.getElem?_declared hd extra), hbody]
  rfl

omit hnames in
theorem calls_of_callee? {id callee : RoutineId} {d : Declaration} {body : Operation} {c : Call}
    (hd : routines[id]? = some d) (hbody : d.body = some body)
    (hc : (c, false) ∈ body.calls false) (hop : v.operation? c.target = none)
    (hcallee : Lowering.callee? (routines ++ extra) c.target.qualified = some callee) :
    g.Calls id callee := by
  obtain ⟨i, hi, hget⟩ := List.getElem_of_mem hc
  refine ⟨Lowering.site v (routines ++ extra) i (c, false), ?_, ?_⟩
  · rw [sites_declared hg hd hbody]
    exact List.mem_mapIdx.mpr ⟨i, hi, by rw [hget]⟩
  · simp [Lowering.site, Lowering.classify, hop, hcallee]

/-- The active routines lead to the one that runs, so it is none of them. -/
theorem events_visible {depth : Nat} {active : List String} {id : RoutineId} {d : Declaration}
    (hd : routines[id]? = some d) (hbody : d.body.isSome = true) (hacyclic : g.AcyclicFrom id)
    (hdeclared : ∀ q, g.Reaches id q → q < routines.length)
    (hdepth : (g.below id).card ≤ depth)
    (hactive : ∀ name ∈ active, ∃ q e, routines[q]? = some e ∧ e.qualifiedName = name ∧
      Relation.TransGen g.Calls q id)
    (reported : Option UInt32) :
    (events v routines depth active d.qualifiedName reported).filterMap Event.visible =
      ((g.boundary? id).map Event.push).toList ++ (g.sites id).flatMap fun s =>
        (s.inlined id g.expansion).filterMap (Effect.event? (reported.getD s.span.start)) := by
  induction depth generalizing active id d reported with
  | zero =>
    have hsize : g.size = routines.length + extra.length := by
      simp [hg, CallGraph.size, Lowering.graph]
    have hlt : id < g.size := by
      rw [hsize]
      exact Nat.lt_add_right _ (hdeclared id .refl)
    -- the routine is one of those below itself
    have hpos := Finset.card_pos.mpr ⟨id, CallGraph.mem_below_self hlt⟩
    omega
  | succ depth ih =>
    obtain ⟨body, hbody⟩ := Option.isSome_iff_exists.mp hbody
    have hinactive : d.qualifiedName ∉ active := by
      intro hmem
      obtain ⟨q, e, he, hname, hcycle⟩ := hactive _ hmem
      obtain rfl := Lowering.eq_of_qualifiedName hnames he hd hname
      exact hacyclic q .refl hcycle
    have hboundary : g.boundary? id =
        (v.boundaryAttribute? d.attributes).map v.markerName := by
      rw [hg, Lowering.boundary?_graph (Lowering.getElem?_declared hd extra)]
    rw [events_succ (Lowering.find?_eq hnames hd) hbody hinactive, filterMap_scopedEvents,
      hboundary, sites_declared hg hd hbody]
    congr 1
    refine (flatMap_sure fun i x hx => ?_).symm
    obtain ⟨c, hidden⟩ := x
    refine filterMap_inlined i c hidden id (reported.getD c.span.start) g.expansion ?_
    intro hshown hop
    subst hshown
    cases hfound : Lowering.callee? (routines ++ extra) c.target.qualified with
    | none => simp [events_of_not_callee hnames v hfound]
    | some callee =>
      have hcall := calls_of_callee? hg hd hbody hx hop hfound
      have hlt := hdeclared callee (.single hcall)
      obtain ⟨e, he, hname, hcallee⟩ := Lowering.callee?_some hfound
      rw [List.getElem?_append_left hlt] at he
      have hbelow := hacyclic.card_below_lt hcall
      have hbusy : ∀ name ∈ d.qualifiedName :: active, ∃ q e, routines[q]? = some e ∧
          e.qualifiedName = name ∧ Relation.TransGen g.Calls q callee := by
        intro name hmem
        rcases List.mem_cons.mp hmem with rfl | hmem
        · exact ⟨id, d, hd, rfl, .single hcall⟩
        · obtain ⟨q, e, he, hname, hleads⟩ := hactive name hmem
          exact ⟨q, e, he, hname, hleads.tail hcall⟩
      -- the name leads the replay to the declaration at the position of the callee
      have hnested := ih he hcallee (hacyclic.of_calls hcall)
        (fun q hq => hdeclared q (.head hcall hq)) (by omega) hbusy
        (some (reported.getD c.span.start))
      change _ = (g.expansion callee).filterMap (Effect.event? (reported.getD c.span.start))
      rw [← hname, hnested, CallGraph.expansion_eq (hacyclic.of_calls hcall),
        Summary.filterMap_bounded, List.filterMap_flatMap]
      rfl

end Expanded

end Replay

end AmbientScope
