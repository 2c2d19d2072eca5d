import AmbientScope.Proofs.NameIndex

/-!
# Lowered graphs

Lowering fails for repeated names alone, and it then names the first declaration whose name has occurred before. Otherwise the
graph has the declared routines in their order and behind them the wrappers whose names are free; every routine is found
under its name, and a call of a routine leads to the one of that name which has a body.
-/

set_option autoImplicit false

namespace AmbientScope

namespace Lowering

/-- The first name that has been met before, among the earlier ones or on the list itself. -/
theorem duplicate?_eq_some_iff {earlier names : List String} {name : String} :
    duplicate? earlier names = some name ↔
      ∃ before after, names = before ++ name :: after ∧ before.Nodup ∧
        (∀ q ∈ before, q ∉ earlier) ∧ (name ∈ earlier ∨ name ∈ before) := by
  induction names generalizing earlier with
  | nil => simp [duplicate?]
  | cons first rest ih =>
    unfold duplicate?
    split
    · rename_i hfirst
      constructor
      · intro h
        obtain rfl := Option.some.inj h
        exact ⟨[], rest, rfl, .nil, by simp, .inl hfirst⟩
      · rintro ⟨before, after, hsplit, _, hnew, _⟩
        cases before with
        | nil => rw [(List.cons.inj hsplit).1]
        | cons q before =>
          obtain ⟨rfl, _⟩ := List.cons.inj hsplit
          exact absurd hfirst (hnew first (.head _))
    · rename_i hfirst
      rw [ih]
      constructor
      · rintro ⟨before, after, rfl, hnodup, hnew, hmem⟩
        refine ⟨first :: before, after, rfl, ?_, ?_, ?_⟩
        · refine List.nodup_cons.mpr ⟨fun h => ?_, hnodup⟩
          exact hnew first h (.head _)
        · intro q hq
          rcases List.mem_cons.mp hq with rfl | hq
          · exact hfirst
          · exact fun h => hnew q hq (.tail _ h)
        · rcases hmem with hmem | hmem
          · rcases List.mem_cons.mp hmem with rfl | hmem
            · exact .inr (.head _)
            · exact .inl hmem
          · exact .inr (.tail _ hmem)
      · rintro ⟨before, after, hsplit, hnodup, hnew, hmem⟩
        cases before with
        | nil =>
          obtain ⟨rfl, _⟩ := List.cons.inj hsplit
          exact absurd hmem (by simp [hfirst])
        | cons q before =>
          obtain ⟨rfl, rfl⟩ := List.cons.inj hsplit
          obtain ⟨hq, hrest⟩ := List.nodup_cons.mp hnodup
          refine ⟨before, after, rfl, hrest, ?_, ?_⟩
          · intro x hx hxe
            rcases List.mem_cons.mp hxe with rfl | hxe
            · exact hq hx
            · exact hnew x (.tail _ hx) hxe
          · rcases hmem with hmem | hmem
            · exact .inl (.tail _ hmem)
            · rcases List.mem_cons.mp hmem with rfl | hmem
              · exact .inl (.head _)
              · exact .inr hmem

theorem duplicate?_eq_none_iff {earlier names : List String} :
    duplicate? earlier names = none ↔ names.Nodup ∧ ∀ q ∈ names, q ∉ earlier := by
  induction names generalizing earlier with
  | nil => simp [duplicate?]
  | cons first rest ih =>
    unfold duplicate?
    split
    · rename_i hfirst
      simp [hfirst]
    · rename_i hfirst
      rw [ih, List.nodup_cons, List.forall_mem_cons]
      constructor
      · rintro ⟨hnodup, hnew⟩
        exact ⟨⟨fun h => hnew first h (.head _), hnodup⟩, hfirst, fun q hq h => hnew q hq (.tail _ h)⟩
      · rintro ⟨⟨hnot, hnodup⟩, _, hnew⟩
        refine ⟨hnodup, fun q hq h => ?_⟩
        rcases List.mem_cons.mp h with rfl | h
        · exact hnot hq
        · exact hnew q hq h

/-- Of the candidates those whose name is not declared and not that of a candidate before them. -/
def free (declared : List String) (candidates : List Declaration) : List Declaration :=
  (candidates.mapIdx fun i w =>
    if w.qualifiedName ∈ declared ∨
        w.qualifiedName ∈ (candidates.take i).map Declaration.qualifiedName then none
    else some w).filterMap id

theorem fresh_eq_free (taken : List String) (candidates : List Declaration) :
    fresh taken candidates = free taken candidates := by
  induction candidates generalizing taken with
  | nil => rfl
  | cons d rest ih =>
    rw [free, List.mapIdx_cons]
    by_cases hd : d.qualifiedName ∈ taken
    · -- whatever repeats this name is declared as well
      have hsame (x : String) (seen : List String) :
          (x ∈ taken ∨ x ∈ d.qualifiedName :: seen) ↔ (x ∈ taken ∨ x ∈ seen) := by
        rw [List.mem_cons]
        constructor
        · rintro (h | rfl | h)
          · exact .inl h
          · exact .inl hd
          · exact .inr h
        · exact Or.imp_right .inr
      simp only [fresh, hd, if_true, true_or, List.take_succ_cons, List.map_cons, hsame, ih taken]
      rfl
    · have hsame (x : String) (seen : List String) :
          (x ∈ taken ∨ x ∈ d.qualifiedName :: seen) ↔ (x ∈ d.qualifiedName :: taken ∨ x ∈ seen) := by
        rw [List.mem_cons, List.mem_cons]
        tauto
      simp only [fresh, hd, if_false, List.take_zero, List.map_nil, List.not_mem_nil, or_self,
        List.take_succ_cons, List.map_cons, hsame, ih (d.qualifiedName :: taken)]
      rfl

theorem fresh_names (taken : List String) (candidates : List Declaration) :
    ((fresh taken candidates).map Declaration.qualifiedName).Nodup ∧
      ∀ w ∈ fresh taken candidates, w.qualifiedName ∉ taken := by
  induction candidates generalizing taken with
  | nil => exact ⟨.nil, fun _ hw => absurd hw List.not_mem_nil⟩
  | cons d rest ih =>
    unfold fresh
    split
    · exact ih taken
    · rename_i hd
      obtain ⟨hnodup, hnew⟩ := ih (d.qualifiedName :: taken)
      constructor
      · refine List.nodup_cons.mpr ⟨fun h => ?_, hnodup⟩
        obtain ⟨w, hw, hsame⟩ := List.mem_map.mp h
        exact hnew w hw (hsame ▸ .head _)
      · intro w hw
        rcases List.mem_cons.mp hw with rfl | hw
        · exact hd
        · exact fun h => hnew w hw (.tail _ h)

/-- The wrappers that join the declared routines. -/
def joining (s : Settings) (declared : List Declaration) : List Declaration :=
  if s.synthesizeWrappers then
    free (declared.map Declaration.qualifiedName)
      (declared.filterMap fun d => d.wrapper? s.vocabulary s.wrapperSuffix)
  else []

theorem wrappers_eq_joining (s : Settings) (declared : List Declaration) :
    wrappers s declared = joining s declared := by
  simp only [wrappers, joining, fresh_eq_free]

theorem nodup_names {declared : List Declaration}
    (h : (declared.map Declaration.qualifiedName).Nodup) (s : Settings) :
    ((declared ++ wrappers s declared).map Declaration.qualifiedName).Nodup := by
  unfold wrappers
  split
  · obtain ⟨hnodup, hnew⟩ := fresh_names (declared.map Declaration.qualifiedName)
      (declared.filterMap fun d => d.wrapper? s.vocabulary s.wrapperSuffix)
    rw [List.map_append, List.nodup_append]
    refine ⟨h, hnodup, ?_⟩
    rintro name hname other hother hsame
    obtain ⟨w, hw, rfl⟩ := List.mem_map.mp hother
    exact hnew w hw (hsame ▸ hname)
  · simpa using h

end Lowering

theorem Vocabulary.operation?_isSome_iff {v : Vocabulary} {target : MethodName} :
    (v.operation? target).isSome = true ↔ ∃ op, v.method op = target := by
  constructor
  · intro h
    obtain ⟨op, hop⟩ := Option.isSome_iff_exists.mp h
    unfold operation? at hop
    split at hop
    · rename_i hplace
      have hmethod : op.methodOf v.entry = target.method := by simpa using List.find?_some hop
      refine ⟨op, ?_⟩
      rw [method, ← hplace.1, ← hplace.2, hmethod]
    · simp at hop
  · rintro ⟨op, rfl⟩
    obtain ⟨op', hop, _⟩ := v.operation?_method op
    simp [hop]

/-- What a lowered site says about its call. -/
structure Site.Classifies (g : CallGraph) (v : Vocabulary) (position : Nat) (c : Call) (x : Site) :
    Prop where
  index : x.index = position
  target : x.target = c.target.qualified
  /-- An operation of the entry point acts on the scope, or counts for nothing. -/
  operation : ((∃ action, x.kind = .direct action) ∨ ∃ op, x.kind = .inert op) ↔
    ∃ op, v.method op = c.target
  callee : ∀ j, x.kind = .call j ↔
    (¬ ∃ op, v.method op = c.target) ∧
      ∃ r, g.routine? j = some r ∧ r.name = c.target.qualified ∧ r.hasBody = true

/-- What lowering makes of one declaration; the first so many are declared. -/
structure Routine.Lowers (g : CallGraph) (v : Vocabulary) (declared position : Nat)
    (d : Declaration) (r : Routine) : Prop where
  id : r.id = position
  name : r.name = d.qualifiedName
  hasBody : r.hasBody = d.body.isSome
  synthesized : r.synthesized = true ↔ declared ≤ position
  length : r.sites.length = (Operation.optionCalls false d.body).length
  sites : ∀ k c hidden, (Operation.optionCalls false d.body)[k]? = some (c, hidden) →
    ∃ x : Site, r.sites[k]? = some x ∧ x.Classifies g v k c

/-- A graph as lowered from a program. -/
structure CallGraph.Lowers (g : CallGraph) (s : Settings) (p : Program) : Prop where
  size : g.size = (p.routines ++ Lowering.joining s p.routines).length
  routine : ∀ i d, (p.routines ++ Lowering.joining s p.routines)[i]? = some d →
    ∃ r, g.routine? i = some r ∧ r.Lowers g s.vocabulary p.routines.length i d
  distinct : (g.routines.map Routine.name).Nodup
  lookup : ∀ name id, g.lookup? name = some id ↔ ∃ r, g.routine? id = some r ∧ r.name = name
  /-- The same through the table of all texts. -/
  index : ∀ name, g.index.lookup? name = g.lookup? name

namespace Lowering
variable {routines : List Declaration} {declared : Nat} {v : Vocabulary}

theorem names_graph (v : Vocabulary) (declared : Nat) (routines : List Declaration) :
    (graph v declared routines).routines.map Routine.name =
      routines.map Declaration.qualifiedName := by
  apply List.ext_getElem?
  intro i
  rw [graph, List.getElem?_map, List.getElem?_mapIdx, List.getElem?_map, Option.map_map]
  rfl

theorem lookup?_graph {id : RoutineId} {d : Declaration}
    (h : (routines.map Declaration.qualifiedName).Nodup) (hd : routines[id]? = some d) :
    (graph v declared routines).lookup? d.qualifiedName = some id := by
  rw [← names_graph v declared] at h
  exact (CallGraph.lookup?_eq_some_iff h).mpr ⟨_, routine?_graph hd, rfl⟩

/-- A callee is a routine of the graph that has the name and a body. -/
theorem callee?_eq_some_iff (declared : Nat) (v : Vocabulary)
    (h : (routines.map Declaration.qualifiedName).Nodup) (name : String) {j : RoutineId} :
    callee? routines name = some j ↔
      ∃ r, (graph v declared routines).routine? j = some r ∧ r.name = name ∧
        r.hasBody = true := by
  constructor
  · intro hj
    obtain ⟨d, hd, hname, hbody⟩ := callee?_some hj
    exact ⟨_, routine?_graph hd, hname, hbody⟩
  · rintro ⟨r, hr, rfl, hbody⟩
    rw [CallGraph.routine?, graph, List.getElem?_mapIdx] at hr
    obtain ⟨d, hd, rfl⟩ := Option.map_eq_some_iff.mp hr
    have hcallee : callee? (routines ++ []) d.qualifiedName = some j := callee?_eq h hd hbody
    rwa [List.append_nil] at hcallee

theorem site_classifies (h : (routines.map Declaration.qualifiedName).Nodup) (k : Nat)
    (c : Call × Bool) :
    (site v routines k c).Classifies (graph v declared routines) v k c.1 := by
  have hoperation : (v.operation? c.1.target).isSome = true ↔ ∃ op, v.method op = c.1.target :=
    Vocabulary.operation?_isSome_iff
  have hcallee := fun j => callee?_eq_some_iff (j := j) declared v h c.1.target.qualified
  refine ⟨rfl, rfl, ?_, fun j => ?_⟩
  · rw [← hoperation]
    simp only [site, classify]
    cases v.operation? c.1.target with
    | some op => cases op <;> simp [Call.classOf]
    | none => cases callee? routines c.1.target.qualified <;> simp
  · rw [← hoperation, ← hcallee j]
    simp only [site, classify]
    cases v.operation? c.1.target with
    | some op => cases op <;> simp [Call.classOf]
    | none => cases callee? routines c.1.target.qualified <;> simp

theorem routine_lowers (h : (routines.map Declaration.qualifiedName).Nodup) (i : RoutineId)
    (d : Declaration) :
    (routine v routines declared i d).Lowers (graph v declared routines) v declared i d := by
  refine ⟨rfl, rfl, rfl, by simp [routine], by simp [routine, sites], fun k c hidden hc => ?_⟩
  refine ⟨site v routines k (c, hidden), ?_, site_classifies h k (c, hidden)⟩
  simp [routine, sites, List.getElem?_mapIdx, hc]

end Lowering

/-- Lowering is refused exactly if two declarations share a name, and the refusal then names the first declaration whose
name has occurred before it. Otherwise the graph is lowered from the program: its routines are the declared ones and
behind them the free wrappers, in order, under distinct names by which they are found, and every site is classified by
its target. -/
theorem CallGraph.ofProgram_wellFormed (s : Settings) (p : Program) :
    ((∃ f, ofProgram s p = .error f) ↔ ¬ (p.routines.map Declaration.qualifiedName).Nodup) ∧
    match ofProgram s p with
    | .error f =>
      ∃ before d after, p.routines = before ++ d :: after ∧
        (before.map Declaration.qualifiedName).Nodup ∧
        d.qualifiedName ∈ before.map Declaration.qualifiedName ∧
        f = .duplicateRoutine d.qualifiedName
    | .ok g => g.Lowers s p := by
  cases hdup : Lowering.duplicate? [] (p.routines.map Declaration.qualifiedName) with
  | some name =>
    have hfails : ofProgram s p = .error (.duplicateRoutine name) := by simp [ofProgram, hdup]
    obtain ⟨before, after, hsplit, hnodup, _, hmem⟩ := Lowering.duplicate?_eq_some_iff.mp hdup
    have hmem : name ∈ before := by simpa using hmem
    simp only [hfails]
    refine ⟨⟨fun _ h => ?_, fun _ => ⟨_, rfl⟩⟩, ?_⟩
    · rw [hsplit, List.nodup_append] at h
      exact h.2.2 name hmem name (.head _) rfl
    · obtain ⟨first, rest, hroutines, rfl, hrest⟩ := List.map_eq_append_iff.mp hsplit
      obtain ⟨d, later, rfl, rfl, rfl⟩ := List.map_eq_cons_iff.mp hrest
      exact ⟨first, d, later, hroutines, hnodup, hmem, rfl⟩
  | none =>
    obtain ⟨hnodup, _⟩ := Lowering.duplicate?_eq_none_iff.mp hdup
    have hok : ofProgram s p = .ok (Lowering.graph s.vocabulary p.routines.length
        (p.routines ++ Lowering.wrappers s p.routines)) := by simp [ofProgram, hdup]
    have hnames := Lowering.nodup_names hnodup s
    have hdistinct := Lowering.names_graph s.vocabulary p.routines.length
      (p.routines ++ Lowering.wrappers s p.routines)
    rw [← hdistinct] at hnames
    simp only [hok]
    refine ⟨⟨by simp, fun h => absurd hnodup h⟩, ?_⟩
    constructor
    · rw [← Lowering.wrappers_eq_joining]
      simp [CallGraph.size, Lowering.graph]
    · intro i d hd
      rw [← Lowering.wrappers_eq_joining] at hd
      exact ⟨_, Lowering.routine?_graph hd, Lowering.routine_lowers (hdistinct ▸ hnames) i d⟩
    · exact hnames
    · exact fun name id => lookup?_eq_some_iff hnames
    · exact lookup?_index (Lowering.graph_indexed _ _ _) hnames

end AmbientScope
