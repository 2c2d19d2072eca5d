import AmbientScope.Proofs.ScopeStores
import Mathlib.Logic.Relation

/-!
# Frames that enclose others

A frame encloses those from which it is reached by going from frame to parent. Searching a key from a frame outwards
comes to the innermost frame that binds it.
-/

set_option autoImplicit false

namespace AmbientScope

namespace Store
variable {κ α : Type} {s : Store κ α} {id p q : FrameId}

/-- The first frame is the second one, or reached from it by going from frame to parent. -/
def Encloses (s : Store κ α) (outer inner : FrameId) : Prop :=
  Relation.ReflTransGen (fun child parent => s.parent? child = some parent) inner outer

theorem encloses_of_root (h : s.parent? id = none) : s.Encloses q id ↔ q = id := by
  constructor
  · intro hq
    rcases Relation.ReflTransGen.cases_head hq with rfl | ⟨p, hp, _⟩
    · rfl
    · simp [h] at hp
  · rintro rfl
    exact .refl

theorem encloses_of_child (h : s.parent? id = some p) : s.Encloses q id ↔ q = id ∨ s.Encloses q p := by
  constructor
  · intro hq
    rcases Relation.ReflTransGen.cases_head hq with rfl | ⟨p', hp', hq⟩
    · exact .inl rfl
    · obtain rfl : p = p' := Option.some.inj (h.symm.trans hp')
      exact .inr hq
  · rintro (rfl | hq)
    · exact .refl
    · exact .head h hq

theorem mem_ancestors_iff (hs : s.WellFormed) : q ∈ s.ancestors id ↔ s.Encloses q id := by
  induction id using ancestors_induction hs with
  | root id hroot => rw [ancestors_of_root hroot, encloses_of_root hroot, List.mem_singleton]
  | child id p hp ih => rw [ancestors_of_child hs hp, encloses_of_child hp, List.mem_cons, ih]

theorem Encloses.le (hs : s.WellFormed) (h : s.Encloses q id) : q ≤ id := by
  induction id using ancestors_induction hs with
  | root id hroot => exact Nat.le_of_eq ((encloses_of_root hroot).mp h)
  | child id p hp ih =>
    rcases (encloses_of_child hp).mp h with rfl | hq
    · exact Nat.le_refl _
    · exact Nat.le_trans (ih hq) (Nat.le_of_lt (parent?_lt hs hp))

theorem Encloses.depth_le (hs : s.WellFormed) (h : s.Encloses q id) : s.depth q ≤ s.depth id := by
  induction id using ancestors_induction hs with
  | root id hroot => exact Nat.le_of_eq (congrArg s.depth ((encloses_of_root hroot).mp h))
  | child id p hp ih =>
    rcases (encloses_of_child hp).mp h with rfl | hq
    · exact Nat.le_refl _
    · rw [depth_of_child hs hp]
      exact Nat.le_succ_of_le (ih hq)

theorem Extends.encloses {s' : Store κ α} (hext : s.Extends s') (h : s.Encloses q id) :
    s'.Encloses q id :=
  Relation.ReflTransGen.mono (fun _ _ hp => (hext.parent? (lt_size_of_parent? hp)).trans hp) _ _ h

section Innermost
variable [DecidableEq κ] {key : κ} {value : α}

/-- Of the frames that enclose the given one, the innermost that binds the key, and the value that it holds. -/
structure Innermost (s : Store κ α) (current : FrameId) (key : κ) (id : FrameId) (value : α) : Prop where
  encloses : s.Encloses id current
  binds : s.local? id key = some value
  /-- No frame between the two binds the key. -/
  first : ∀ q, s.Encloses q current → s.Encloses id q → q ≠ id → s.local? q key = none

/-- A frame that binds the key is the innermost one from there. -/
theorem innermost_self (hs : s.WellFormed) (h : s.local? id key = some value) :
    s.Innermost id key id value where
  encloses := .refl
  binds := h
  first := fun _ hq hid hne => absurd (Nat.le_antisymm (hq.le hs) (hid.le hs)) hne

theorem Innermost.of_bound (h : s.Innermost p key id value) {v : α} (hbound : s.local? p key = some v) :
    value = v := by
  by_cases hid : p = id
  · subst hid
    exact Option.some.inj (h.binds.symm.trans hbound)
  · have hnone := h.first p .refl h.encloses hid
    simp [hbound] at hnone

theorem Innermost.outward (hp : s.parent? id = some p) (hnone : s.local? id key = none)
    (h : s.Innermost p key q value) : s.Innermost id key q value where
  encloses := .head hp h.encloses
  binds := h.binds
  first := by
    intro r hr hq hne
    rcases (encloses_of_child hp).mp hr with rfl | hr
    · exact hnone
    · exact h.first r hr hq hne

theorem Innermost.inward (hp : s.parent? id = some p) (hnone : s.local? id key = none)
    (h : s.Innermost id key q value) : s.Innermost p key q value where
  encloses := by
    rcases (encloses_of_child hp).mp h.encloses with rfl | hq
    · exact absurd (hnone.symm.trans h.binds) (by simp)
    · exact hq
  binds := h.binds
  first := fun r hr => h.first r (.head hp hr)

theorem resolve?_of_root (h : s.parent? id = none) : s.resolve? id key = s.local? id key := by
  simp [resolve?, ancestors_of_root h]

theorem resolve?_of_child (hs : s.WellFormed) (h : s.parent? id = some p) :
    s.resolve? id key = (s.local? id key).or (s.resolve? p key) := by
  rw [resolve?, ancestors_of_child hs h, List.findSome?_cons, resolve?]
  cases s.local? id key <;> rfl

theorem resolve?_eq_some_iff (hs : s.WellFormed) :
    s.resolve? id key = some value ↔ ∃ q, s.Innermost id key q value := by
  have hbound {id : FrameId} {v : α} (h : s.local? id key = some v) :
      (∃ q, s.Innermost id key q value) ↔ v = value :=
    ⟨fun ⟨_, hq⟩ => (hq.of_bound h).symm, fun he => ⟨id, innermost_self hs (he ▸ h)⟩⟩
  induction id using ancestors_induction hs with
  | root id hroot =>
    rw [resolve?_of_root hroot]
    cases h : s.local? id key with
    | some v => rw [hbound h, Option.some.injEq]
    | none =>
      simp only [reduceCtorEq, false_iff]
      rintro ⟨q, hq⟩
      obtain rfl := (encloses_of_root hroot).mp hq.encloses
      exact absurd (h.symm.trans hq.binds) (by simp)
  | child id p hp ih =>
    rw [resolve?_of_child hs hp]
    cases h : s.local? id key with
    | some v => rw [hbound h, Option.some_or, Option.some.injEq]
    | none =>
      rw [Option.none_or]
      exact ih.trans (exists_congr fun q => ⟨Innermost.outward hp h, Innermost.inward hp h⟩)

theorem resolve?_eq_none_iff (hs : s.WellFormed) :
    s.resolve? id key = none ↔ ∀ q, s.Encloses q id → s.local? q key = none := by
  rw [resolve?, List.findSome?_eq_none_iff]
  exact forall_congr' fun q => imp_congr_left (mem_ancestors_iff hs)

end Innermost

end Store

end AmbientScope
