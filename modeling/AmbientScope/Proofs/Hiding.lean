import AmbientScope.CallGraph.Lowering
import Mathlib.Data.List.Forall2

/-!
# Hiding code

A program is hidden in part by putting control constructs around operations in the bodies of its routines. The calls
of a body stay what they are and where they are, and only the flag that says whether they are hidden can change, from
sure to hidden. So the graph keeps its routines and sites, and with them the wrappers and the callees.
-/

set_option autoImplicit false

namespace AmbientScope

theorem forall₂_mapIdx {α β γ δ : Type} {R : α → β → Prop} {S : γ → δ → Prop} {f : Nat → α → γ}
    {f' : Nat → β → δ} {xs : List α} {ys : List β} (h : List.Forall₂ R xs ys)
    (hf : ∀ i x y, R x y → S (f i x) (f' i y)) :
    List.Forall₂ S (xs.mapIdx f) (ys.mapIdx f') := by
  induction h generalizing f f' with
  | nil => exact .nil
  | cons hxy _ ih =>
    rw [List.mapIdx_cons, List.mapIdx_cons]
    exact .cons (hf 0 _ _ hxy) (ih fun i x y => hf (i + 1) x y)

/-- The same call, hidden if it was hidden before. -/
def Call.Darker (a b : Call × Bool) : Prop := a.1 = b.1 ∧ (a.2 = true → b.2 = true)

namespace Operation

mutual

/-- The second operation is the first one with control constructs put around some of the operations in it. -/
inductive Hides : Operation → Operation → Prop where
  | around {op inner outer : Operation} :
      Hides op inner → outer.isControl = true → outer.parts = [inner] → Hides op outer
  | block {ops ops' : List Operation} : HidesAll ops ops' → Hides (.block ops) (.block ops')
  | invocation {c : Call} {ops ops' : List Operation} :
      HidesAll ops ops' → Hides (.invocation c ops) (.invocation c ops')
  | conditional {condition condition' : Option Operation} {whenTrue whenTrue' : Operation}
      {whenFalse whenFalse' : Option Operation} :
      HidesAny condition condition' → Hides whenTrue whenTrue' → HidesAny whenFalse whenFalse' →
      Hides (.conditional condition whenTrue whenFalse)
        (.conditional condition' whenTrue' whenFalse')
  | loop {ops ops' : List Operation} : HidesAll ops ops' → Hides (.loop ops) (.loop ops')
  | switch {value value' : Option Operation} {arms arms' : List Operation} :
      HidesAny value value' → HidesAll arms arms' → Hides (.switch value arms) (.switch value' arms')
  | attempt {body body' : Operation} {handlers handlers' : List Operation}
      {cleanup cleanup' : Option Operation} :
      Hides body body' → HidesAll handlers handlers' → HidesAny cleanup cleanup' →
      Hides (.attempt body handlers cleanup) (.attempt body' handlers' cleanup')
  | other {ops ops' : List Operation} : HidesAll ops ops' → Hides (.other ops) (.other ops')

inductive HidesAll : List Operation → List Operation → Prop where
  | nil : HidesAll [] []
  | cons {op op' : Operation} {ops ops' : List Operation} :
      Hides op op' → HidesAll ops ops' → HidesAll (op :: ops) (op' :: ops')

inductive HidesAny : Option Operation → Option Operation → Prop where
  | none : HidesAny none none
  | some {op op' : Operation} : Hides op op' → HidesAny (some op) (some op')

end

/-- A control construct around a single operation hides its calls and has no others. -/
theorem calls_of_isControl {outer inner : Operation} (h : outer.isControl = true)
    (hparts : outer.parts = [inner]) (hidden : Bool) : outer.calls hidden = inner.calls true := by
  cases outer with
  | conditional condition whenTrue whenFalse =>
    cases condition <;> cases whenFalse <;> simp_all [parts, calls, optionCalls]
  | loop children => simp_all [parts, calls, listCalls]
  | switch value arms =>
    cases value <;> simp_all [parts, calls, listCalls, optionCalls]
  | attempt body handlers cleanup =>
    cases handlers <;> cases cleanup <;> simp_all [parts, calls, listCalls, optionCalls]
  | _ => simp [isControl] at h

mutual

theorem Hides.calls {op op' : Operation} : Hides op op' → ∀ {a b : Bool},
    (a = true → b = true) → List.Forall₂ Call.Darker (op.calls a) (op'.calls b)
  | .around h hcontrol hparts, _, _, _ => by
    rw [calls_of_isControl hcontrol hparts]
    exact h.calls fun _ => rfl
  | .block h, _, _, hab => h.calls hab
  | .invocation h, _, _, hab => .cons ⟨rfl, hab⟩ (h.calls hab)
  | .conditional hc ht hf, _, _, _ =>
    List.rel_append (List.rel_append (hc.calls id) (ht.calls id)) (hf.calls id)
  | .loop h, _, _, _ => h.calls id
  | .switch hv ha, _, _, _ => List.rel_append (hv.calls id) (ha.calls id)
  | .attempt hb hh hc, _, _, _ =>
    List.rel_append (List.rel_append (hb.calls id) (hh.calls id)) (hc.calls id)
  | .other h, _, _, hab => h.calls hab

theorem HidesAll.calls {ops ops' : List Operation} : HidesAll ops ops' → ∀ {a b : Bool},
    (a = true → b = true) → List.Forall₂ Call.Darker (listCalls a ops) (listCalls b ops')
  | .nil, _, _, _ => .nil
  | .cons h hs, _, _, hab => List.rel_append (h.calls hab) (hs.calls hab)

theorem HidesAny.calls {op op' : Option Operation} : HidesAny op op' → ∀ {a b : Bool},
    (a = true → b = true) → List.Forall₂ Call.Darker (optionCalls a op) (optionCalls b op')
  | .none, _, _, _ => .nil
  | .some h, _, _, hab => h.calls hab

end

theorem HidesAny.isSome_eq {op op' : Option Operation} (h : HidesAny op op') :
    op'.isSome = op.isSome := by
  cases h <;> rfl

end Operation

/-- The same declaration with parts of its body hidden. -/
def Declaration.Hides (d d' : Declaration) : Prop :=
  Operation.HidesAny d.body d'.body ∧ d' = { d with body := d'.body }

/-- The same routines in the same order, with parts of their bodies hidden. -/
def Program.Hides (p p' : Program) : Prop := List.Forall₂ Declaration.Hides p.routines p'.routines

/-- The same site, hidden if it was hidden before. -/
def Site.Darker (s s' : Site) : Prop :=
  s' = { s with hidden := s'.hidden } ∧ (s.hidden = true → s'.hidden = true)

/-- The same routine with the same sites, some of them hidden now. -/
def Routine.Darker (r r' : Routine) : Prop :=
  r' = { r with sites := r'.sites } ∧ List.Forall₂ Site.Darker r.sites r'.sites

def CallGraph.Darker (g g' : CallGraph) : Prop :=
  List.Forall₂ Routine.Darker g.routines g'.routines

namespace Lowering

/-- What lowering sees of hiding: the same calls in the same order. -/
structure Shaded (d d' : Declaration) : Prop where
  same : d' = { d with body := d'.body }
  body : d'.body.isSome = d.body.isSome
  calls : List.Forall₂ Call.Darker (Operation.optionCalls false d.body)
    (Operation.optionCalls false d'.body)

theorem Shaded.refl (d : Declaration) : Shaded d d :=
  ⟨rfl, rfl, List.forall₂_same.mpr fun _ _ => ⟨rfl, id⟩⟩

theorem shaded_of_hides {d d' : Declaration} (h : d.Hides d') : Shaded d d' :=
  ⟨h.2, h.1.isSome_eq, h.1.calls id⟩

section Declarations
variable {d d' : Declaration} (h : Shaded d d')
include h

theorem Shaded.qualifiedName : d'.qualifiedName = d.qualifiedName := by
  rw [h.same]
  rfl

theorem Shaded.wrapper? (v : Vocabulary) (suffix : String) :
    d'.wrapper? v suffix = d.wrapper? v suffix := by
  rw [h.same]
  rfl

end Declarations

section Lists
variable {ds ds' : List Declaration} (h : List.Forall₂ Shaded ds ds')
include h

theorem names_of_shaded :
    ds'.map Declaration.qualifiedName = ds.map Declaration.qualifiedName := by
  induction h with
  | nil => rfl
  | cons hd _ ih => simp [ih, hd.qualifiedName]

theorem wrappers_of_shaded (s : Settings) : wrappers s ds' = wrappers s ds := by
  have hmade : ds'.filterMap (fun d => d.wrapper? s.vocabulary s.wrapperSuffix) =
      ds.filterMap fun d => d.wrapper? s.vocabulary s.wrapperSuffix := by
    induction h with
    | nil => rfl
    | cons hd _ ih => simp [List.filterMap_cons, ih, hd.wrapper?]
  simp only [wrappers, names_of_shaded h, hmade]

theorem body_isSome_of_shaded (id : Nat) :
    (ds'[id]?.bind Declaration.body).isSome = (ds[id]?.bind Declaration.body).isSome := by
  induction h generalizing id with
  | nil => rfl
  | cons hd _ ih =>
    cases id with
    | zero => simpa using hd.body
    | succ id => simpa using ih id

theorem callee?_of_shaded (name : String) : callee? ds' name = callee? ds name := by
  have hfind : ds'.findIdx? (·.qualifiedName == name) = ds.findIdx? (·.qualifiedName == name) := by
    induction h with
    | nil => rfl
    | cons hd _ ih => simp [List.findIdx?_cons, ih, hd.qualifiedName]
  simp only [callee?, hfind, body_isSome_of_shaded h]

theorem classify_of_shaded (v : Vocabulary) (c : Call) : classify v ds' c = classify v ds c := by
  simp only [classify, callee?_of_shaded h]

theorem graph_of_shaded (v : Vocabulary) (declared : Nat) :
    (graph v declared ds).Darker (graph v declared ds') := by
  apply forall₂_mapIdx h
  intro id d d' hd
  have hsites : List.Forall₂ Site.Darker (sites v ds d.body) (sites v ds' d'.body) := by
    apply forall₂_mapIdx hd.calls
    intro i a b hab
    obtain ⟨c, hidden⟩ := b
    obtain ⟨hc, hhidden⟩ := hab
    refine ⟨?_, hhidden⟩
    simp only at hc
    simp [site, classify_of_shaded h, hc]
  refine ⟨?_, hsites⟩
  obtain ⟨hsame, hbody, _⟩ := hd
  rw [hsame]
  simp [routine, hbody, Declaration.qualifiedName]

end Lists

end Lowering

/-- Hiding parts of a program neither makes nor mends a name that is declared twice. -/
theorem CallGraph.ofProgram_of_hides (s : Settings) {p p' : Program} (h : p.Hides p') :
    (∃ f, ofProgram s p = .error f ∧ ofProgram s p' = .error f) ∨
      ∃ g g', ofProgram s p = .ok g ∧ ofProgram s p' = .ok g' ∧ g.Darker g' := by
  have hshaded : List.Forall₂ Lowering.Shaded p.routines p'.routines :=
    h.imp fun _ _ => Lowering.shaded_of_hides
  have hall : List.Forall₂ Lowering.Shaded (p.routines ++ Lowering.wrappers s p.routines)
      (p'.routines ++ Lowering.wrappers s p'.routines) := by
    rw [Lowering.wrappers_of_shaded hshaded]
    exact List.rel_append hshaded (List.forall₂_same.mpr fun d _ => Lowering.Shaded.refl d)
  unfold ofProgram
  rw [Lowering.names_of_shaded hshaded, ← hshaded.length_eq]
  split
  · rename_i name _
    exact .inl ⟨.duplicateRoutine name, rfl, rfl⟩
  · exact .inr ⟨_, _, rfl, rfl, Lowering.graph_of_shaded hall _ _⟩

end AmbientScope
