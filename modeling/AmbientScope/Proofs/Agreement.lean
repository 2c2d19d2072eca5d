import AmbientScope.Proofs.BindingNames
import AmbientScope.Proofs.ExpandedExecution
import AmbientScope.Proofs.LoweredGraphs
import AmbientScope.Proofs.Replays

/-!
# Checks and replays

A check of an entry reports duplicates exactly where a replay of the entry is refused a provide, as long as nothing is
provided in a scope that was returned to. Apart from that it takes names that a check and a store tell apart alike, calls
that a replay can follow, and pushes that are sure to run.
-/

set_option autoImplicit false

namespace AmbientScope

/-- The call names a type, and one whose name is not taken for that of a type with a key. -/
def Call.Typed (c : Call) : Prop := ∃ type, c.valueType = some type ∧ '[' ∉ type.toList

theorem Call.Typed.not_untyped {a b : Call} (ha : a.Typed) : ¬ a.Untyped b := by
  intro h
  obtain ⟨type, htype, _⟩ := ha
  simp [h.missing] at htype

theorem Call.Typed.not_readsInto {a b : Call} (hb : b.Typed) : ¬ a.ReadsInto b := by
  intro h
  obtain ⟨type, htype, hbracket⟩ := hb
  apply hbracket
  have htext : type = b.typeText := by simp [typeText, htype]
  rw [htext]
  cases h with
  | whole key _ _ hwhole => simp [hwhole]
  | part front key _ _ hpart => simp [hpart]

namespace Replay

theorem bindingName_eq_iff {a b : Call} (ha : a.Typed) (hb : b.Typed) :
    bindingName a = bindingName b ↔ a.valueKey = b.valueKey := by
  refine (bindingName_eq_iff_valueKey_eq a b).mpr ?_
  rintro ((h | h) | h | h)
  · exact hb.not_readsInto h
  · exact ha.not_readsInto h
  · exact ha.not_untyped h
  · exact hb.not_untyped h

/-- Names of bindings and keys repeat in the same places. -/
theorem refused_visible (es : List (Event Call))
    (htyped : ∀ c offset, .provide c offset ∈ es → c.Typed) (seen : List Call)
    (hseen : ∀ c ∈ seen, c.Typed) :
    Event.refused bindingName (seen.map bindingName) es =
      Event.refused (fun key => key) (seen.map Call.valueKey)
        (es.filterMap Event.visible) := by
  induction es generalizing seen with
  | nil => rfl
  | cons e rest ih =>
    have hrest := fun c offset hc => htyped c offset (.tail _ hc)
    cases e with
    | push label => exact ih hrest [] (by simp)
    | pop => exact ih hrest seen hseen
    | provide c offset =>
      have hc := htyped c offset (.head _)
      have hsame : bindingName c ∈ seen.map bindingName ↔ c.valueKey ∈ seen.map Call.valueKey := by
        simp only [List.mem_map]
        constructor
        · rintro ⟨b, hb, heq⟩
          exact ⟨b, hb, (bindingName_eq_iff (hseen b hb) hc).mp heq⟩
        · rintro ⟨b, hb, heq⟩
          exact ⟨b, hb, (bindingName_eq_iff (hseen b hb) hc).mpr heq⟩
      have htail := ih hrest (c :: seen) (List.forall_mem_cons.mpr ⟨hc, hseen⟩)
      have hvisible : Event.visible (.provide c offset) = some (.provide c.valueKey offset) := rfl
      rw [List.filterMap_cons_some hvisible, Event.refused, Event.refused]
      exact congrArg₂ (· ++ ·) (if_congr hsame rfl rfl) htail

end Replay

/-- A push in front changes nothing when no key has been provided yet. -/
theorem Event.refused_boundary {α κ : Type} [DecidableEq κ] (key : α → κ) (label : Option String)
    (es : List (Event α)) :
    Event.refused key [] ((label.map Event.push).toList ++ es) = Event.refused key [] es := by
  cases label <;> rfl

theorem CallGraph.filterMap_stream (g : CallGraph) (id : RoutineId) :
    (g.stream id).filterMap Detection.event? = (g.sites id).flatMap fun s =>
      (s.inlined id g.expansion).filterMap (Effect.event? s.span.start) := by
  simp [stream, Detection.stream, List.flatMap_map, List.filterMap_flatMap, List.filterMap_map,
    Function.comp_def, Detection.event?]

namespace Scenario

/-- The call graph of a scenario under the vocabulary of a replay. -/
def graph (s : Scenario) (o : Settings) : CallGraph :=
  Lowering.graph {} s.routines.length (s.routines ++ Lowering.wrappers o s.routines)

/-- A check of the entry at the given position and a replay of it can be compared. -/
structure Comparable (s : Scenario) (o : Settings) (entry : String) (id : RoutineId) : Prop where
  vocabulary : o.vocabulary = {}
  names : (s.routines.map Declaration.qualifiedName).Nodup
  root : ∃ d, s.routines[id]? = some d ∧ d.qualifiedName = entryName entry ∧
    d.body.isSome = true
  acyclic : (s.graph o).AcyclicFrom id
  /-- No generated wrapper can be reached. -/
  declared : ∀ q r, (s.graph o).Reaches id q → (s.graph o).routine? q = some r →
    r.synthesized = false
  typed : ∀ c offset, .provide c offset ∈ s.events entry → c.Typed
  shown : ∀ x ∈ (s.graph o).stream id, Detection.Pushes x → x.2.hidden = false
  /-- Nothing is provided after a pop, or after the return from a scope, before the next push. -/
  scopes : Event.PushesAfterPop (s.events entry)

namespace Comparable
variable {s : Scenario} {o : Settings} {entry : String} {id : RoutineId}
  (h : s.Comparable o entry id)
include h

theorem ofProgram : CallGraph.ofProgram o s.program = .ok (s.graph o) := by
  have hdistinct := Lowering.duplicate?_eq_none_iff.mpr ⟨h.names, fun _ _ => List.not_mem_nil⟩
  unfold CallGraph.ofProgram
  simp only [Scenario.program, hdistinct, h.vocabulary]
  rfl

theorem lt_of_reaches {q : RoutineId} (hq : (s.graph o).Reaches id q) : q < s.routines.length := by
  rcases Relation.ReflTransGen.cases_tail hq with rfl | ⟨p, _, hcall⟩
  · obtain ⟨d, hd, _⟩ := h.root
    exact (List.getElem?_eq_some_iff.mp hd).1
  · obtain ⟨e, he⟩ := Lowering.exists_of_calls hcall
    have hsynthesized := h.declared q _ hq (Lowering.routine?_graph he)
    simpa [Lowering.routine] using hsynthesized

theorem below_subset : (s.graph o).below id ⊆ Finset.range s.routines.length := by
  intro q hq
  exact Finset.mem_range.mpr (h.lt_of_reaches (CallGraph.reaches_of_mem_below hq))

/-- The places where the store refuses a provide are those where the expansion repeats a key. -/
theorem replay_eq :
    s.replay entry =
      Event.refused (fun key => key) [] (((s.graph o).stream id).filterMap Detection.event?) := by
  obtain ⟨d, hd, hname, hbody⟩ := h.root
  have hdepth : ((s.graph o).below id).card ≤ s.routines.length + 1 := by
    have hle := Finset.card_le_card h.below_subset
    rw [Finset.card_range] at hle
    exact Nat.le_succ_of_le hle
  have hevents := Replay.events_visible h.names (g := s.graph o) rfl hd hbody h.acyclic
    (fun _ => h.lt_of_reaches) hdepth (fun _ hn => absurd hn List.not_mem_nil) none
  have hkeys := Replay.refused_visible (s.events entry) h.typed [] (by simp)
  rw [hname] at hevents
  rw [Scenario.replay_eq_refused h.scopes]
  refine hkeys.trans ?_
  rw [Scenario.events, hevents, CallGraph.filterMap_stream]
  exact Event.refused_boundary _ _ _

end Comparable

/-- Duplicates are reported exactly where the replay is refused a provide, in the same order. -/
theorem check_agrees_with_replay {s : Scenario} {o : Settings} {entry : String} {id : RoutineId}
    (h : s.Comparable o entry id) (rules : Rules) {v : View} (hmarks : v.marks = [])
    (hcache : v.cache.Exact (s.graph o)) :
    CallGraph.ofProgram o s.program = .ok (s.graph o) ∧
    ∃ report u, check (s.graph o) rules false v id = (.ok report, u) ∧
      (report.filter (·.code == 9001)).map (fun d => d.span.map Span.start) =
        (s.replay entry).map some := by
  refine ⟨h.ofProgram, ?_⟩
  obtain ⟨d, hd, _, _⟩ := h.root
  have hr : (s.graph o).routine? id = some _ :=
    Lowering.routine?_graph (Lowering.getElem?_declared hd (Lowering.wrappers o s.routines))
  obtain ⟨all, u, hall, hstream⟩ :=
    Detection.contributions_stream h.acyclic hr rfl hmarks hcache
  refine ⟨_, u, check_of_contributions hr hall, ?_⟩
  rw [Detection.reportOf_filter, hstream,
    Detection.starts_collisions _ _ h.shown Detection.sees_nil, h.replay_eq]

/-- Scopes that are pushed, left and entered by a call, a helper that is called in two of them, and a provide that may
not run. -/
def nestedScopes : Scenario where
  routines :=
    [routine "Main" none [] none
       [provide "Logger" 1, call "Helper" 2 [provideNamed "Logger" "audit" 3],
        when (provide "Logger" 4), push "Job" 5, provide "Logger" 6, pop 7, push "Next" 8,
        call "Helper" 9 [], call "Helper" 10 [], call "Inner" 11 []],
     routine "Helper" none [] none [provide "Logger" 100],
     routine "Inner" (some "JobScope") [] none [provide "Logger" 200]]

theorem nestedScopes_descends :
    (nestedScopes.graph {}).descends [0, 1, 2] (fun id => 2 - id) = true := by
  rfl

theorem nestedScopes_comparable : nestedScopes.Comparable {} "Main" 0 where
  vocabulary := rfl
  names := by decide
  root := ⟨_, rfl, rfl, rfl⟩
  acyclic := CallGraph.acyclicFrom_of_descends nestedScopes_descends (by decide)
  declared := by
    intro q r hq hr
    have hmem := CallGraph.descends_reaches nestedScopes_descends (by decide) hq
    simp only [List.mem_cons, List.not_mem_nil, or_false] at hmem
    rcases hmem with rfl | rfl | rfl
    · cases hr
      rfl
    · cases hr
      rfl
    · cases hr
      rfl
  typed := by
    intro c offset hmem
    have hall : (nestedScopes.events "Main").all (fun e =>
        match e with
        | .provide c _ => c.valueType == some "Logger"
        | _ => true) = true := by
      rfl
    exact ⟨"Logger", by simpa using List.all_eq_true.mp hall _ hmem, by decide⟩
  shown := by
    intro x hmem hpush
    have hall : ((nestedScopes.graph {}).stream 0).all (fun x =>
        !(Detection.entry x).isPush || !x.2.hidden) = true := by
      rfl
    simpa [Detection.isPush_iff.mpr hpush] using List.all_eq_true.mp hall x hmem
  scopes := Event.orderly_eq_true_iff.mp rfl

/-- The helper repeats a key on its first and its third call. -/
theorem check_agrees_with_replay_of_nested :
    nestedScopes.Comparable {} "Main" 0 ∧ ({} : View).marks = [] ∧
    ({} : View).cache.Exact (nestedScopes.graph {}) ∧
    CallGraph.ofProgram {} nestedScopes.program = .ok (nestedScopes.graph {}) ∧
    ∃ report u, check (nestedScopes.graph {}) {} false {} 0 = (.ok report, u) ∧
      (report.filter (·.code == 9001)).map (fun d => d.span.map Span.start) =
        (nestedScopes.replay "Main").map some ∧
      nestedScopes.replay "Main" = [2, 10] := by
  have hcache : ({} : View).cache.Exact (nestedScopes.graph {}) := SummaryCache.exact_empty _
  obtain ⟨hok, report, u, hcheck, hstarts⟩ :=
    check_agrees_with_replay nestedScopes_comparable {} (v := {}) rfl hcache
  exact ⟨nestedScopes_comparable, rfl, hcache, hok, report, u, hcheck, hstarts, rfl⟩

end Scenario

end AmbientScope
