import AmbientScope.Proofs.Placements
import AmbientScope.Proofs.WrapperCalls

/-!
# Merged programs

Two lists of declarations are merged into one that keeps the order of each. If their routines have different names, and
neither calls a routine of the other, then lowering merges as well: the wrappers of the merged list are those of both
lists, again merged, and the two graphs sit side by side in the graph of the merged list.
-/

set_option autoImplicit false

namespace AmbientScope

/-- The third list has the entries of the first two, those of each in their order. -/
inductive Merge {α : Type} : List α → List α → List α → Prop where
  | nil : Merge [] [] []
  | left {x : α} {xs ys zs : List α} : Merge xs ys zs → Merge (x :: xs) ys (x :: zs)
  | right {y : α} {xs ys zs : List α} : Merge xs ys zs → Merge xs (y :: ys) (y :: zs)

namespace Merge
variable {α β : Type} {xs ys zs xs' ys' zs' : List α} (h : Merge xs ys zs)
include h

theorem symm : Merge ys xs zs := by
  induction h with
  | nil => exact .nil
  | left _ ih => exact .right ih
  | right _ ih => exact .left ih

theorem perm : zs.Perm (xs ++ ys) := by
  induction h with
  | nil => exact .refl _
  | left _ ih => exact ih.cons _
  | right _ ih => exact (ih.cons _).trans List.perm_middle.symm

theorem mem_iff {z : α} : z ∈ zs ↔ z ∈ xs ∨ z ∈ ys := by
  rw [h.perm.mem_iff, List.mem_append]

theorem append (h' : Merge xs' ys' zs') : Merge (xs ++ xs') (ys ++ ys') (zs ++ zs') := by
  induction h with
  | nil => exact h'
  | left _ ih => exact .left ih
  | right _ ih => exact .right ih

theorem filterMap (f : α → Option β) : Merge (xs.filterMap f) (ys.filterMap f) (zs.filterMap f) := by
  induction h with
  | nil => exact .nil
  | @left x xs ys zs _ ih =>
    cases hx : f x with
    | none => simpa [List.filterMap_cons, hx] using ih
    | some b => simpa [List.filterMap_cons, hx] using ih.left
  | @right y xs ys zs _ ih =>
    cases hy : f y with
    | none => simpa [List.filterMap_cons, hy] using ih
    | some b => simpa [List.filterMap_cons, hy] using ih.right

theorem map (f : α → β) : Merge (xs.map f) (ys.map f) (zs.map f) := by
  simpa using h.filterMap fun x => some (f x)

theorem filter (p : α → Bool) : Merge (xs.filter p) (ys.filter p) (zs.filter p) := by
  simpa using h.filterMap (Option.guard p)

end Merge

namespace Lowering

/-- Where the declarations of two lists stand in a list that merges them. -/
structure Divides (f f' : Nat → Nat) (xs ys zs : List Declaration) : Prop where
  left : Places f xs zs
  right : Places f' ys zs
  apart : ∀ i j, f i ≠ f' j
  order : Merge ((List.range xs.length).map f) ((List.range ys.length).map f') (List.range zs.length)

theorem Divides.symm {f f' : Nat → Nat} {xs ys zs : List Declaration} (h : Divides f f' xs ys zs) :
    Divides f' f ys xs zs :=
  ⟨h.right, h.left, fun i j => (h.apart j i).symm, h.order.symm⟩

theorem Divides.cons {f f' : Nat → Nat} {xs ys zs : List Declaration} (h : Divides f f' xs ys zs)
    (d : Declaration) : Divides (shift f) (fun j => f' j + 1) (d :: xs) ys (d :: zs) where
  left := by
    refine ⟨shift_injective h.left.injective, fun i => ?_⟩
    cases i with
    | zero => rfl
    | succ i => exact h.left.getElem? i
  right := by
    refine ⟨fun i j hij => h.right.injective (Nat.succ.inj hij), fun j => ?_⟩
    exact h.right.getElem? j
  apart := by
    intro i j
    cases i with
    | zero => exact (Nat.succ_ne_zero _).symm
    | succ i => exact fun hij => h.apart i j (Nat.succ.inj hij)
  order := by
    have hrest := h.order.map Nat.succ
    rw [List.map_map, List.map_map] at hrest
    rw [List.length_cons, List.length_cons, List.range_succ_eq_map, List.range_succ_eq_map,
      List.map_cons, List.map_map]
    exact .left hrest

theorem exists_divides {xs ys zs : List Declaration} (h : Merge xs ys zs) :
    ∃ f f', Divides f f' xs ys zs := by
  induction h with
  | nil =>
    -- positions behind the ends have to go to different places as well
    refine ⟨fun i => 2 * i, fun j => 2 * j + 1, ⟨?_, fun _ => rfl⟩, ⟨?_, fun _ => rfl⟩, ?_, .nil⟩
    · intro i j hij
      simpa using hij
    · intro i j hij
      simpa using hij
    · intro i j
      omega
  | left _ ih =>
    obtain ⟨f, f', hdivides⟩ := ih
    exact ⟨_, _, hdivides.cons _⟩
  | right _ ih =>
    obtain ⟨f, f', hdivides⟩ := ih
    exact ⟨_, _, (hdivides.symm.cons _).symm⟩

/-- A name that is repeated in the merged list is repeated in one of the two, the first such name of which it is. -/
theorem duplicate?_of_merge {xs ys zs : List String} (h : Merge xs ys zs) {left right all : List String}
    (hapart : ∀ name ∈ xs, name ∉ ys) (hleft : ∀ name ∈ xs, name ∈ all ↔ name ∈ left)
    (hright : ∀ name ∈ ys, name ∈ all ↔ name ∈ right) :
    duplicate? all zs = (duplicate? left xs).or (duplicate? right ys) ∨
      duplicate? all zs = (duplicate? right ys).or (duplicate? left xs) := by
  induction h generalizing left right all with
  | nil => exact .inl rfl
  | @left x xs ys zs _ ih =>
    obtain ⟨hx, hxs⟩ := List.forall_mem_cons.mp hleft
    by_cases hseen : x ∈ left
    · refine .inl ?_
      rw [duplicate?, if_pos (hx.mpr hseen), duplicate?, if_pos hseen, Option.some_or]
    · rw [duplicate?, if_neg (mt hx.mp hseen), duplicate?, if_neg hseen]
      refine ih (fun name hname => hapart name (.tail _ hname)) (fun name hname => ?_)
        fun name hname => ?_
      · rw [List.mem_cons, List.mem_cons, hxs name hname]
      · have hne : name ≠ x := fun he => hapart x (.head _) (he ▸ hname)
        rw [List.mem_cons, hright name hname, or_iff_right hne]
  | @right y xs ys zs _ ih =>
    obtain ⟨hy, hys⟩ := List.forall_mem_cons.mp hright
    by_cases hseen : y ∈ right
    · refine .inr ?_
      rw [duplicate?, if_pos (hy.mpr hseen), duplicate?, if_pos hseen, Option.some_or]
    · rw [duplicate?, if_neg (mt hy.mp hseen), duplicate?, if_neg hseen]
      refine ih (fun name hname hys => hapart name hname (.tail _ hys)) (fun name hname => ?_)
        fun name hname => ?_
      · have hne : name ≠ y := fun he => hapart name hname (he ▸ .head _)
        rw [List.mem_cons, hleft name hname, or_iff_right hne]
      · rw [List.mem_cons, List.mem_cons, hys name hname]

/-- Candidates of one list never take a name that a candidate of the other list needs. -/
theorem fresh_of_merge {xs ys zs : List Declaration} (h : Merge xs ys zs)
    {left right all : List String} (hall : ∀ name, name ∈ all ↔ name ∈ left ∨ name ∈ right)
    (hapart : ∀ name ∈ left ++ (fresh left xs).map Declaration.qualifiedName,
      name ∉ right ++ (fresh right ys).map Declaration.qualifiedName) :
    Merge (fresh left xs) (fresh right ys) (fresh all zs) := by
  induction h generalizing left right all with
  | nil => exact .nil
  | @left x xs ys zs _ ih =>
    by_cases htaken : x.qualifiedName ∈ left
    · rw [fresh, if_pos htaken] at hapart ⊢
      rw [fresh, if_pos ((hall _).mpr (.inl htaken))]
      exact ih hall hapart
    · rw [fresh, if_neg htaken] at hapart ⊢
      have hother : x.qualifiedName ∉ right := fun hmem =>
        hapart _ (by simp) (List.mem_append_left _ hmem)
      have hfree : x.qualifiedName ∉ all := fun hmem => ((hall _).mp hmem).elim htaken hother
      rw [fresh, if_neg hfree]
      refine .left (ih (fun name => ?_) fun name hname => hapart name ?_)
      · rw [List.mem_cons, List.mem_cons, hall name, or_assoc]
      · simpa [or_assoc, or_left_comm] using hname
  | @right y xs ys zs _ ih =>
    by_cases htaken : y.qualifiedName ∈ right
    · rw [fresh, if_pos htaken] at hapart ⊢
      rw [fresh, if_pos ((hall _).mpr (.inr htaken))]
      exact ih hall hapart
    · rw [fresh, if_neg htaken] at hapart ⊢
      have hother : y.qualifiedName ∉ left := fun hmem =>
        hapart _ (List.mem_append_left _ hmem) (by simp)
      have hfree : y.qualifiedName ∉ all := fun hmem => ((hall _).mp hmem).elim hother htaken
      rw [fresh, if_neg hfree]
      refine .right (ih (fun name => ?_) fun name hname hmem => hapart name hname ?_)
      · rw [List.mem_cons, List.mem_cons, hall name, or_left_comm]
      · simpa [or_assoc, or_left_comm] using hmem

end Lowering

/-- The names of the routines that a program declares, and of those in its graph if it has one. -/
inductive Program.Names (s : Settings) (p : Program) : String → Prop where
  | declared {d : Declaration} : d ∈ p.routines → Names s p d.qualifiedName
  | synthesized {g : CallGraph} {r : Routine} :
      CallGraph.ofProgram s p = .ok g → r ∈ g.routines → Names s p r.name

/-- Two programs without a common name, neither of which calls a routine of the other. -/
structure Program.Unrelated (s : Settings) (p q : Program) : Prop where
  names : ∀ name, p.Names s name → ¬ q.Names s name
  calls : ∀ d ∈ p.routines, ∀ c ∈ Operation.optionCalls false d.body,
    ¬ q.Names s c.1.target.qualified
  calls' : ∀ d ∈ q.routines, ∀ c ∈ Operation.optionCalls false d.body,
    ¬ p.Names s c.1.target.qualified

namespace Program
variable {s : Settings} {p q m : Program}

/-- The declarations that are lowered for a program: its own, and the wrappers. -/
def lowered (s : Settings) (p : Program) : List Declaration :=
  p.routines ++ Lowering.wrappers s p.routines

theorem names_of_lowered (hp : (p.routines.map Declaration.qualifiedName).Nodup) {d : Declaration}
    (hd : d ∈ p.lowered s) : p.Names s d.qualifiedName := by
  obtain ⟨i, hi⟩ := List.getElem?_of_mem hd
  exact .synthesized (CallGraph.ofProgram_of_nodup s hp)
    (List.mem_of_getElem? (Lowering.routine?_graph hi))

theorem mem_names_lowered {name : String} (h : p.Names s name) :
    name ∈ (p.lowered s).map Declaration.qualifiedName := by
  cases h with
  | declared hd => exact List.mem_map_of_mem (List.mem_append_left _ hd)
  | synthesized hg hr =>
    obtain ⟨_, rfl⟩ := CallGraph.ofProgram_eq_ok_iff.mp hg
    rw [lowered, ← Lowering.names_graph s.vocabulary p.routines.length]
    exact List.mem_map_of_mem hr

theorem Unrelated.symm (h : p.Unrelated s q) : q.Unrelated s p :=
  ⟨fun name hq hp => h.names name hp hq, h.calls', h.calls⟩

theorem Unrelated.not_mem_names (h : p.Unrelated s q) {name : String}
    (hname : name ∈ p.routines.map Declaration.qualifiedName) :
    name ∉ q.routines.map Declaration.qualifiedName := by
  intro hother
  obtain ⟨d, hd, rfl⟩ := List.mem_map.mp hname
  obtain ⟨e, he, hsame⟩ := List.mem_map.mp hother
  exact h.names _ (.declared hd) (hsame ▸ .declared he)

section Lowered
variable (h : p.Unrelated s q) (hmerge : Merge p.routines q.routines m.routines)
  (hp : (p.routines.map Declaration.qualifiedName).Nodup)
  (hq : (q.routines.map Declaration.qualifiedName).Nodup)
include h hp hq

theorem Unrelated.lowered_apart {d e : Declaration} (hd : d ∈ p.lowered s) (he : e ∈ q.lowered s) :
    d.qualifiedName ≠ e.qualifiedName := by
  intro hsame
  exact h.names _ (names_of_lowered hp hd) (hsame ▸ names_of_lowered hq he)

omit hp in
/-- No call that is lowered for the first program leads to the second one. -/
theorem Unrelated.target_apart {d e : Declaration} (hd : d ∈ p.lowered s) {c : Call × Bool}
    (hc : c ∈ Operation.optionCalls false d.body)
    (hop : s.vocabulary.operation? c.1.target = none) (he : e ∈ q.lowered s) :
    e.qualifiedName ≠ c.1.target.qualified := by
  intro hsame
  have hname := hsame ▸ names_of_lowered hq he
  rcases List.mem_append.mp hd with hdeclared | hwrapper
  · exact h.calls d hdeclared c hc hname
  · -- a wrapper calls a declared routine of its own program
    obtain ⟨origin, horigin, hmade⟩ := Lowering.exists_of_mem_wrappers hwrapper
    rw [Declaration.target_of_wrapper hmade hc hop] at hname
    exact h.names _ (.declared horigin) hname

include hmerge

theorem Unrelated.lowered_merge : Merge (p.lowered s) (q.lowered s) (m.lowered s) := by
  refine hmerge.append ?_
  have hapart : ∀ name ∈ (p.lowered s).map Declaration.qualifiedName,
      name ∉ (q.lowered s).map Declaration.qualifiedName := by
    intro name hname hother
    obtain ⟨d, hd, rfl⟩ := List.mem_map.mp hname
    obtain ⟨e, he, hsame⟩ := List.mem_map.mp hother
    exact h.lowered_apart hp hq hd he hsame.symm
  simp only [lowered, Lowering.wrappers] at hapart ⊢
  split
  · rename_i hsynthesize
    simp only [hsynthesize, if_true, List.map_append] at hapart
    refine Lowering.fresh_of_merge (hmerge.filterMap _) (fun name => ?_) hapart
    exact (hmerge.map Declaration.qualifiedName).mem_iff
  · exact .nil

theorem Unrelated.nodup_merged : (m.routines.map Declaration.qualifiedName).Nodup := by
  rw [(hmerge.map Declaration.qualifiedName).perm.nodup_iff]
  exact hp.append hq fun name => h.not_mem_names

end Lowered

/-- The graph of a program whose names are distinct. -/
def graph (s : Settings) (p : Program) : CallGraph :=
  Lowering.graph s.vocabulary p.routines.length (p.lowered s)

theorem size_graph (s : Settings) (p : Program) : (p.graph s).size = (p.lowered s).length := by
  simp [graph, Lowering.graph, CallGraph.size]

theorem graph_indexed (s : Settings) (p : Program) : (p.graph s).Indexed :=
  Lowering.graph_indexed _ _ _

section Divided
variable {f f' : Nat → Nat} (h : p.Unrelated s q)
  (hmerge : Merge p.routines q.routines m.routines)
  (hp : (p.routines.map Declaration.qualifiedName).Nodup)
  (hq : (q.routines.map Declaration.qualifiedName).Nodup)
  (hdivides : Lowering.Divides f f' (p.lowered s) (q.lowered s) (m.lowered s))
include h hmerge hp hq hdivides

theorem Unrelated.embeds : (p.graph s).Embeds f (m.graph s) := by
  refine hdivides.left.embeds (Lowering.nodup_names hp s)
    (Lowering.nodup_names (h.nodup_merged hmerge hp hq) s) _ _ ?_
  intro d hd c hc hop k e he hname
  have hlt : k ∈ List.range (m.lowered s).length :=
    List.mem_range.mpr (List.getElem?_eq_some_iff.mp he).1
  rcases hdivides.order.mem_iff.mp hlt with hown | hother
  · obtain ⟨i, _, rfl⟩ := List.mem_map.mp hown
    exact ⟨i, rfl⟩
  · obtain ⟨j, _, rfl⟩ := List.mem_map.mp hother
    have hmem : e ∈ q.lowered s := List.mem_of_getElem? (hdivides.right.getElem? j ▸ he)
    exact absurd hname (h.target_apart hq hd hc hop hmem)

/-- Merged programs are checked in the merged order. -/
theorem Unrelated.bodies_merge :
    Merge ((p.graph s).bodies.map f) ((q.graph s).bodies.map f') (m.graph s).bodies := by
  have hleft := h.embeds hmerge hp hq hdivides
  have hright := h.symm.embeds hmerge.symm hq hp hdivides.symm
  have hfilter := hdivides.order.filter fun id => ((m.graph s).routine? id).any Routine.hasBody
  have hbody : (fun id => ((m.graph s).routine? id).any Routine.hasBody) ∘ f =
      fun id => ((p.graph s).routine? id).any Routine.hasBody := funext hleft.hasBody
  have hbody' : (fun id => ((m.graph s).routine? id).any Routine.hasBody) ∘ f' =
      fun id => ((q.graph s).routine? id).any Routine.hasBody := funext hright.hasBody
  rw [List.filter_map, List.filter_map, hbody, hbody'] at hfilter
  rw [(p.graph_indexed s).bodies_eq_filter, (q.graph_indexed s).bodies_eq_filter,
    (m.graph_indexed s).bodies_eq_filter, size_graph, size_graph, size_graph]
  exact hfilter

end Divided

end Program

end AmbientScope
