import AmbientScope.Proofs.Expansion
import AmbientScope.Proofs.HiddenRuns

/-!
# Renumbered routines

One graph sits inside another when its routines are there under other numbers: each has the sites it had, with the
numbers of callees exchanged. Numbers occur in calls and in the origins of effects. No report depends on them, so a
routine is reported on alike in both graphs as long as its callees contribute the same effects up to origins.
-/

set_option autoImplicit false

namespace AmbientScope

section Data
variable (f : RoutineId → RoutineId)

def Origin.renumber : Origin → Origin
  | site routine index => .site (f routine) index
  | boundary routine => .boundary (f routine)

def Effect.renumber (e : Effect) : Effect := { e with origin := e.origin.renumber f }

def Summary.renumber (s : Summary) : Summary := s.map (Effect.renumber f)

def SiteClass.renumber : SiteClass → SiteClass
  | direct action => .direct action
  | inert op => .inert op
  | call callee => .call (f callee)
  | external => .external

def Site.renumber (s : Site) : Site := { s with kind := s.kind.renumber f }

/-- The same routine under another number, declared or not. -/
def Routine.Renumbered (r r' : Routine) : Prop :=
  r' = { r with id := f r.id, sites := r.sites.map (Site.renumber f), synthesized := r'.synthesized }

def TraceEntry.renumber (e : TraceEntry) : TraceEntry := { e with effect := e.effect.renumber f }

def Trace.renumber (t : Trace) : Trace := t.map (TraceEntry.renumber f)

@[simp] theorem Summary.renumber_nil : renumber f [] = [] := rfl

@[simp] theorem Summary.renumber_cons (e : Effect) (s : Summary) :
    renumber f (e :: s) = e.renumber f :: renumber f s := rfl

@[simp] theorem Summary.renumber_append (s t : Summary) :
    renumber f (s ++ t) = renumber f s ++ renumber f t :=
  List.map_append

theorem Summary.splice_renumber (callHidden : Bool) (s : Summary) :
    (renumber f s).splice callHidden = renumber f (s.splice callHidden) := by
  simp only [splice, renumber, List.map_map]
  rfl

theorem Site.effect_renumber (s : Site) (id : RoutineId) (action : Action) :
    (s.renumber f).effect (f id) action = (s.effect id action).renumber f := rfl

theorem Site.kind_renumber {s : Site} {kind : SiteClass} (h : s.kind = kind) :
    (s.renumber f).kind = kind.renumber f := by
  rw [← h]
  rfl

/-- A site contributes the same effects when its callee does. -/
theorem Site.inlined_renumber (s : Site) (id : RoutineId) {summaryOf summaryOf' : RoutineId → Summary}
    (h : ∀ callee, summaryOf' (f callee) = (summaryOf callee).renumber f) :
    (s.renumber f).inlined (f id) summaryOf' = Summary.renumber f (s.inlined id summaryOf) := by
  unfold inlined
  cases hk : s.kind with
  | direct action => simp only [kind_renumber f hk, SiteClass.renumber, effect_renumber]; rfl
  | inert op => simp only [kind_renumber f hk, SiteClass.renumber]; rfl
  | call callee =>
    simp only [kind_renumber f hk, SiteClass.renumber, h]
    exact Summary.splice_renumber f _ _
  | external => simp only [kind_renumber f hk, SiteClass.renumber]; rfl

end Data

/-- All routines of the first graph are in the second one, under other numbers, and the numbers that mean nothing in the
first graph go to such numbers. -/
structure CallGraph.Embeds (f : RoutineId → RoutineId) (g g' : CallGraph) : Prop where
  injective : Function.Injective f
  routine? : ∀ id, Option.Rel (Routine.Renumbered f) (g.routine? id) (g'.routine? (f id))

namespace CallGraph.Embeds
variable {f : RoutineId → RoutineId} {g g' : CallGraph} (h : g.Embeds f g')
include h

theorem sites (id : RoutineId) : g'.sites (f id) = (g.sites id).map (Site.renumber f) := by
  unfold CallGraph.sites
  cases hr : g.routine? id with
  | none =>
    rw [eq_none_of_rel (h.routine? id) hr]
    rfl
  | some r =>
    obtain ⟨r', hr', hsame⟩ := eq_some_of_rel (h.routine? id) hr
    rw [hr', hsame]
    rfl

theorem boundary? (id : RoutineId) : g'.boundary? (f id) = g.boundary? id := by
  unfold CallGraph.boundary?
  cases hr : g.routine? id with
  | none => rw [eq_none_of_rel (h.routine? id) hr]
  | some r =>
    obtain ⟨r', hr', hsame⟩ := eq_some_of_rel (h.routine? id) hr
    rw [hr', hsame]
    rfl

theorem bounded (id : RoutineId) (s : Summary) :
    Summary.bounded g' (f id) (s.renumber f) = (Summary.bounded g id s).renumber f := by
  unfold Summary.bounded
  rw [h.boundary? id]
  cases g.boundary? id <;> rfl

theorem hasBody (id : RoutineId) :
    (g'.routine? (f id)).any Routine.hasBody = (g.routine? id).any Routine.hasBody := by
  cases hr : g.routine? id with
  | none => rw [eq_none_of_rel (h.routine? id) hr]
  | some r =>
    obtain ⟨r', hr', hsame⟩ := eq_some_of_rel (h.routine? id) hr
    rw [hr', hsame]
    rfl

theorem calls {id callee : RoutineId} (hc : g.Calls id callee) : g'.Calls (f id) (f callee) := by
  obtain ⟨s, hs, hk⟩ := hc
  refine ⟨s.renumber f, ?_, Site.kind_renumber f hk⟩
  rw [h.sites id]
  exact List.mem_map_of_mem hs

/-- Routines that are in both graphs call nothing else in the second one. -/
theorem exists_of_calls {id q : RoutineId} (hc : g'.Calls (f id) q) :
    ∃ callee, f callee = q ∧ g.Calls id callee := by
  obtain ⟨s', hs', hk'⟩ := hc
  rw [h.sites id] at hs'
  obtain ⟨s, hs, rfl⟩ := List.mem_map.mp hs'
  cases hk : s.kind with
  | call callee =>
    obtain rfl : f callee = q := by simpa [Site.kind_renumber f hk, SiteClass.renumber] using hk'
    exact ⟨callee, rfl, s, hs, hk⟩
  | _ => simp [Site.kind_renumber f hk, SiteClass.renumber] at hk'

theorem transGen_calls {id q : RoutineId} (hr : Relation.TransGen g.Calls id q) :
    Relation.TransGen g'.Calls (f id) (f q) :=
  hr.lift f fun _ _ => h.calls

theorem exists_of_transGen {id q : RoutineId} (hr : Relation.TransGen g'.Calls (f id) q) :
    ∃ callee, f callee = q ∧ Relation.TransGen g.Calls id callee := by
  induction hr with
  | single hc =>
    obtain ⟨callee, rfl, hcall⟩ := h.exists_of_calls hc
    exact ⟨callee, rfl, .single hcall⟩
  | tail _ hc ih =>
    obtain ⟨mid, rfl, hmid⟩ := ih
    obtain ⟨callee, rfl, hcall⟩ := h.exists_of_calls hc
    exact ⟨callee, rfl, hmid.tail hcall⟩

theorem acyclic (hf : Function.Surjective f) (hg : g.Acyclic) : g'.Acyclic := by
  intro q hcycle
  obtain ⟨id, rfl⟩ := hf q
  obtain ⟨callee, hsame, hcall⟩ := h.exists_of_transGen hcycle
  exact hg id (h.injective hsame ▸ hcall)

theorem unroll (depth : Nat) (id : RoutineId) :
    g'.unroll depth (f id) = (g.unroll depth id).renumber f := by
  induction depth generalizing id with
  | zero => rfl
  | succ depth ih =>
    rw [CallGraph.unroll, CallGraph.unroll, h.sites id, ← h.bounded]
    congr 1
    rw [Summary.renumber, List.map_flatMap, List.flatMap_map]
    apply List.flatMap_congr
    intro s _
    exact Site.inlined_renumber f s id ih

end CallGraph.Embeds

namespace Detection
variable (f : RoutineId → RoutineId)

theorem previousProvide?_renumber (t : Trace) (key : ValueKey) :
    (t.renumber f).previousProvide? key = t.previousProvide? key := by
  unfold Trace.previousProvide? Trace.renumber
  rw [List.takeWhile_map, List.find?_map, Option.map_map]
  rfl

theorem duplicate_renumbered {r r' : Routine} (h : r.Renumbered f r') (s : Site) (key : ValueKey)
    (previous : Nat) :
    duplicate r' (s.renumber f) key previous = duplicate r s key previous := by
  unfold duplicate
  rw [h, List.getElem?_map]
  cases r.sites[previous]? <;> rfl

variable (rules : Rules) {r r' : Routine} (h : r.Renumbered f r')
include h

theorem findings_renumbered (s : Site) (t : Trace) (reported : Bool) (e : Effect) :
    findings rules r' (s.renumber f) (t.renumber f) reported (e.renumber f) =
      findings rules r s t reported e := by
  have hflow : hiddenFlow rules r' (s.renumber f) (e.renumber f) = hiddenFlow rules r s e := by
    rw [h]
    rfl
  simp only [findings, hflow, previousProvide?_renumber, duplicate_renumbered f h]
  rfl

theorem siteReport_renumbered (s : Site) (t : Trace) (reported : Bool) (es : List Effect) :
    siteReport rules r' (s.renumber f) (t.renumber f) reported (Summary.renumber f es) =
      siteReport rules r s t reported es := by
  induction es generalizing t reported with
  | nil => rfl
  | cons e rest ih =>
    have hecho : echo rules r' (s.renumber f) (e.renumber f) = echo rules r s e := by
      rw [h]
      rfl
    rw [Summary.renumber_cons, siteReport, siteReport, hecho, findings_renumbered f rules h]
    exact congrArg _ (ih (⟨e, s.index⟩ :: t) (reported || e.hidden))

omit h in
theorem record_renumber (t : Trace) (s : Site) (es : List Effect) :
    (t.renumber f).record (s.renumber f) (Summary.renumber f es) = (t.record s es).renumber f := by
  simp only [Trace.record, Trace.renumber, Summary.renumber, List.map_append, List.map_reverse,
    List.map_map]
  rfl

/-- The contributions of a site in the other graph. -/
def renumber (c : Site × List Effect) : Site × List Effect :=
  (c.1.renumber f, Summary.renumber f c.2)

theorem reportOf_renumbered (t : Trace) (all : List (Site × List Effect)) :
    reportOf rules r' (t.renumber f) (all.map (renumber f)) = reportOf rules r t all := by
  induction all generalizing t with
  | nil => rfl
  | cons c rest ih =>
    obtain ⟨s, es⟩ := c
    simp only [List.map_cons, renumber, reportOf, siteReport_renumbered f rules h, record_renumber]
    rw [← ih]

end Detection

end AmbientScope
