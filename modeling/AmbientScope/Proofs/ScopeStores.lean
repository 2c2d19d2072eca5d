import AmbientScope.Scope.Contexts

/-!
# Frames of a store

The shape of a frame is its label, its parent and its depth. No operation changes the shape of a frame that exists, so
the frames that enclose it stay the same for good; a new frame is enclosed by older ones.
-/

set_option autoImplicit false

namespace AmbientScope

def Frame.shape {κ α : Type} (f : Frame κ α) : String × Option FrameId × Nat :=
  (f.label, f.parent, f.depth)

namespace Store
variable {κ α : Type}

def size (s : Store κ α) : Nat := s.frames.length

/-- The frames of the first store have the same shape in the second one. -/
def Extends (s s' : Store κ α) : Prop :=
  s.frames.map Frame.shape <+: s'.frames.map Frame.shape

/-- A frame with a parent is one deeper than its parent, which is older; all others are roots. -/
structure WellFormed (s : Store κ α) : Prop where
  root : ∀ id f, s.frame? id = some f → f.parent = none → f.depth = 0
  child : ∀ id f p, s.frame? id = some f → f.parent = some p → p < id ∧ f.depth = s.depth p + 1

section Shapes
variable {s s' : Store κ α} {id p : FrameId}

theorem frame?_isSome (h : id < s.size) : ∃ f, s.frame? id = some f :=
  ⟨s.frames[id], List.getElem?_eq_getElem h⟩

theorem lt_size {f : Frame κ α} (h : s.frame? id = some f) : id < s.size :=
  (List.getElem?_eq_some_iff.mp h).1

theorem lt_size_of_parent? (h : s.parent? id = some p) : id < s.size := by
  obtain ⟨f, hf, _⟩ := Option.bind_eq_some_iff.mp h
  exact lt_size hf

theorem Extends.refl (s : Store κ α) : s.Extends s := List.prefix_rfl

theorem Extends.size_le (h : s.Extends s') : s.size ≤ s'.size := by
  have hlength := List.IsPrefix.length_le h
  simpa [size] using hlength

theorem Extends.shape (h : s.Extends s') (hid : id < s.size) :
    (s'.frame? id).map Frame.shape = (s.frame? id).map Frame.shape := by
  have hlt : id < (s.frames.map Frame.shape).length := by simpa [size] using hid
  have hget := List.prefix_iff_getElem?.mp h id hlt
  rw [← List.getElem?_eq_getElem hlt, List.getElem?_map, List.getElem?_map] at hget
  exact hget

theorem Extends.frame? (h : s.Extends s') {f : Frame κ α} (hf : s.frame? id = some f) :
    ∃ f', s'.frame? id = some f' ∧ f'.label = f.label ∧ f'.parent = f.parent ∧
      f'.depth = f.depth := by
  have hshape := h.shape (lt_size hf)
  rw [hf] at hshape
  obtain ⟨f', hf', hsame⟩ := Option.map_eq_some_iff.mp hshape
  simp only [Frame.shape, Prod.mk.injEq] at hsame
  exact ⟨f', hf', hsame⟩

theorem Extends.parent? (h : s.Extends s') (hid : id < s.size) : s'.parent? id = s.parent? id := by
  obtain ⟨f, hf⟩ := frame?_isSome hid
  obtain ⟨f', hf', _, hparent, _⟩ := h.frame? hf
  simp [Store.parent?, hf, hf', hparent]

theorem Extends.depth (h : s.Extends s') (hid : id < s.size) : s'.depth id = s.depth id := by
  obtain ⟨f, hf⟩ := frame?_isSome hid
  obtain ⟨f', hf', _, _, hdepth⟩ := h.frame? hf
  simp [Store.depth, hf, hf', hdepth]

theorem Extends.pop (h : s.Extends s') (hid : id < s.size) : s'.pop id = s.pop id := by
  rw [Store.pop, Store.pop, h.parent? hid]

end Shapes

section Ancestors
variable {s s' : Store κ α} {id p : FrameId}

theorem ancestors_of_root (h : s.parent? id = none) : s.ancestors id = [id] := by
  unfold ancestors
  simp [h]

theorem ancestors_of_child (hs : s.WellFormed) (h : s.parent? id = some p) :
    s.ancestors id = id :: s.ancestors p := by
  obtain ⟨f, hf, hparent⟩ := Option.bind_eq_some_iff.mp h
  have hlt := (hs.child id f p hf hparent).1
  rw [ancestors]
  simp [h, hlt]

theorem parent?_lt (hs : s.WellFormed) (h : s.parent? id = some p) : p < id := by
  obtain ⟨f, hf, hparent⟩ := Option.bind_eq_some_iff.mp h
  exact (hs.child id f p hf hparent).1

theorem parent?_lt_size (hs : s.WellFormed) (h : s.parent? id = some p) : p < s.size :=
  Nat.lt_trans (parent?_lt hs h) (lt_size_of_parent? h)

theorem pop_lt_size (hs : s.WellFormed) (hid : id < s.size) : s.pop id < s.size := by
  unfold pop
  cases h : s.parent? id with
  | none => exact hid
  | some p => exact parent?_lt_size hs h

/-- Along the way to the root: a property of a root that passes from a frame to those it encloses. -/
theorem ancestors_induction (hs : s.WellFormed) {motive : FrameId → Prop}
    (root : ∀ id, s.parent? id = none → motive id)
    (child : ∀ id p, s.parent? id = some p → motive p → motive id) (id : FrameId) : motive id := by
  induction id using Nat.strongRecOn with
  | ind id ih =>
    cases h : s.parent? id with
    | none => exact root id h
    | some p => exact child id p h (ih p (parent?_lt hs h))

theorem Extends.ancestors (h : s.Extends s') (hs : s.WellFormed) (hs' : s'.WellFormed)
    (hid : id < s.size) : s'.ancestors id = s.ancestors id := by
  induction id using ancestors_induction hs with
  | root id hroot =>
    rw [ancestors_of_root hroot, ancestors_of_root ((h.parent? hid).trans hroot)]
  | child id p hp ih =>
    rw [ancestors_of_child hs hp, ancestors_of_child hs' ((h.parent? hid).trans hp),
      ih (parent?_lt_size hs hp)]

theorem ancestors_ne_nil (hs : s.WellFormed) (id : FrameId) :
    s.ancestors id = id :: (s.ancestors id).tail := by
  cases h : s.parent? id with
  | none => rw [ancestors_of_root h, List.tail_cons]
  | some p => rw [ancestors_of_child hs h, List.tail_cons]

theorem lt_size_of_mem_ancestors (hs : s.WellFormed) (hid : id < s.size) {q : FrameId}
    (hq : q ∈ s.ancestors id) : q < s.size := by
  induction id using ancestors_induction hs with
  | root id hroot =>
    rw [ancestors_of_root hroot, List.mem_singleton] at hq
    exact hq ▸ hid
  | child id p hp ih =>
    rw [ancestors_of_child hs hp] at hq
    rcases List.mem_cons.mp hq with rfl | hq
    · exact hid
    · exact ih (parent?_lt_size hs hp) hq

theorem depth_of_child (hs : s.WellFormed) (h : s.parent? id = some p) :
    s.depth id = s.depth p + 1 := by
  obtain ⟨f, hf, hparent⟩ := Option.bind_eq_some_iff.mp h
  simp [depth, hf, (hs.child id f p hf hparent).2]

theorem depth_add_one (hs : s.WellFormed) (hid : id < s.size) :
    s.depth id + 1 = (s.ancestors id).length := by
  induction id using ancestors_induction hs with
  | root id hroot =>
    obtain ⟨f, hf⟩ := frame?_isSome hid
    have hparent : f.parent = none := by simpa [parent?, hf] using hroot
    simp [ancestors_of_root hroot, depth, hf, hs.root id f hf hparent]
  | child id p hp ih =>
    rw [ancestors_of_child hs hp, List.length_cons, depth_of_child hs hp,
      ih (parent?_lt_size hs hp)]

end Ancestors

section Operations
variable {s : Store κ α}

theorem wellFormed_empty : (empty : Store κ α).WellFormed := by
  constructor
  · intro id f h
    simp [frame?, empty] at h
  · intro id f p h
    simp [frame?, empty] at h

theorem add_extends (s : Store κ α) (f : Frame κ α) : s.Extends (s.add f).2 := by
  unfold Extends add
  rw [List.map_append]
  exact List.prefix_append _ _

theorem frame?_add_self (s : Store κ α) (f : Frame κ α) : (s.add f).2.frame? s.size = some f := by
  simp [add, frame?, size]

theorem frame?_add_of_lt {id : FrameId} (f : Frame κ α) (h : id < s.size) :
    (s.add f).2.frame? id = s.frame? id :=
  List.getElem?_append_left h

theorem size_add (s : Store κ α) (f : Frame κ α) : (s.add f).2.size = s.size + 1 := by
  simp [add, size]

theorem wellFormed_add (hs : s.WellFormed) {f : Frame κ α} (hroot : f.parent = none → f.depth = 0)
    (hchild : ∀ p, f.parent = some p → p < s.size ∧ f.depth = s.depth p + 1) :
    (s.add f).2.WellFormed := by
  have hold (id : FrameId) (g : Frame κ α) (hg : (s.add f).2.frame? id = some g) :
      (id < s.size ∧ s.frame? id = some g) ∨ (id = s.size ∧ g = f) := by
    have hlt := lt_size hg
    rw [size_add] at hlt
    rcases Nat.lt_or_ge id s.size with h | h
    · exact .inl ⟨h, frame?_add_of_lt f h ▸ hg⟩
    · obtain rfl : id = s.size := Nat.le_antisymm (Nat.le_of_lt_succ hlt) h
      rw [frame?_add_self] at hg
      exact .inr ⟨rfl, (Option.some.inj hg).symm⟩
  constructor
  · intro id g hg hnone
    rcases hold id g hg with ⟨_, hg⟩ | ⟨_, rfl⟩
    · exact hs.root id g hg hnone
    · exact hroot hnone
  · intro id g p hg hp
    rcases hold id g hg with ⟨hid, hg⟩ | ⟨rfl, rfl⟩
    · obtain ⟨hlt, hdepth⟩ := hs.child id g p hg hp
      exact ⟨hlt, by rw [(add_extends s f).depth (Nat.lt_trans hlt hid), hdepth]⟩
    · obtain ⟨hlt, hdepth⟩ := hchild p hp
      exact ⟨hlt, by rw [(add_extends s g).depth hlt, hdepth]⟩

theorem wellFormed_root (hs : s.WellFormed) (label : String) : (s.root label).2.WellFormed :=
  wellFormed_add hs (fun _ => rfl) (fun _ h => by simp at h)

theorem wellFormed_push (hs : s.WellFormed) {current : FrameId} (h : current < s.size)
    (label : String) : (s.push current label).2.WellFormed := by
  apply wellFormed_add hs
  · intro hnone
    simp at hnone
  · intro p hp
    obtain rfl := Option.some.inj hp
    exact ⟨h, rfl⟩

theorem root_extends (s : Store κ α) (label : String) : s.Extends (s.root label).2 :=
  add_extends s _

theorem size_root (s : Store κ α) (label : String) : (s.root label).2.size = s.size + 1 :=
  size_add s _

theorem parent?_root (s : Store κ α) (label : String) :
    (s.root label).2.parent? s.size = none := by
  simp [root, parent?, frame?_add_self]

theorem push_extends (s : Store κ α) (current : FrameId) (label : String) :
    s.Extends (s.push current label).2 := add_extends s _

theorem size_push (s : Store κ α) (current : FrameId) (label : String) :
    (s.push current label).2.size = s.size + 1 := size_add s _

theorem parent?_push (s : Store κ α) (current : FrameId) (label : String) :
    (s.push current label).2.parent? s.size = some current := by
  simp [push, parent?, frame?_add_self]

theorem extends_of_shapes {s' : Store κ α}
    (h : s'.frames.map Frame.shape = s.frames.map Frame.shape) : s.Extends s' :=
  ⟨[], (List.append_nil _).trans h.symm⟩

theorem wellFormed_of_shapes {s' : Store κ α} (hs : s.WellFormed)
    (h : s'.frames.map Frame.shape = s.frames.map Frame.shape) : s'.WellFormed := by
  have hback := extends_of_shapes h.symm
  constructor
  · intro id f hf hnone
    obtain ⟨g, hg, _, hparent, hdepth⟩ := hback.frame? hf
    rw [← hdepth]
    exact hs.root id g hg (hparent.trans hnone)
  · intro id f p hf hp
    obtain ⟨g, hg, _, hparent, hdepth⟩ := hback.frame? hf
    obtain ⟨hlt, hsame⟩ := hs.child id g p hg (hparent.trans hp)
    have hpsize : p < s.size := Nat.lt_trans hlt (lt_size hg)
    exact ⟨hlt, by rw [← hdepth, hsame, (extends_of_shapes h).depth hpsize]⟩

theorem shapes_set {id : FrameId} {f f' : Frame κ α} (hf : s.frame? id = some f)
    (hshape : f'.shape = f.shape) :
    (s.frames.set id f').map Frame.shape = s.frames.map Frame.shape := by
  have hget : (s.frames.map Frame.shape)[id]? = some f'.shape := by
    rw [List.getElem?_map, show s.frames[id]? = some f from hf, Option.map_some, hshape]
  obtain ⟨hlt, hsame⟩ := List.getElem?_eq_some_iff.mp hget
  rw [List.map_set, ← hsame, List.set_getElem_self]

theorem shapes_identify (s : Store κ α) (id : FrameId) :
    (s.identify id).2.frames.map Frame.shape = s.frames.map Frame.shape := by
  unfold identify
  split
  · rfl
  · rename_i f hf
    split
    · rfl
    · exact shapes_set hf rfl

theorem shapes_provide [DecidableEq κ] (s : Store κ α) (id : FrameId) (key : κ) (value : α) :
    (s.provide id key value).2.frames.map Frame.shape = s.frames.map Frame.shape := by
  unfold provide
  split
  · rfl
  · rename_i f hf
    split
    · rfl
    · exact shapes_set hf rfl

end Operations

end Store

end AmbientScope
