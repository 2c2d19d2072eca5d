import AmbientScope.Proofs.EnclosingFrames
import AmbientScope.Proofs.Refusals
import AmbientScope.Proofs.RestoredScopes

/-!
# Scopes of a replay

A replay never leaves the root frame that it starts in: it is in this frame or in one that it encloses, since popping
the root goes nowhere. What a frame binds are the names that have been provided in it. So the store refuses a provide
exactly if one under the same name came before it in the same frame, whatever was entered and left in between.
-/

set_option autoImplicit false

namespace AmbientScope

namespace Store
variable {κ α : Type} [DecidableEq κ] {s : Store κ α} {id : FrameId}

theorem provide_accepts_iff (hid : id < s.size) (key : κ) (value : α) :
    (s.provide id key value).1 = true ↔ s.local? id key = none := by
  refine ⟨local?_of_provide, fun hfree => ?_⟩
  obtain ⟨f, hf⟩ := frame?_isSome hid
  have hbound : f.bindings.get? key = none := by simpa [local?, hf] using hfree
  simp [provide, hf, FirstWrite.contains, hbound]

/-- After a provide the frame binds the key, and apart from that what was bound before is bound. -/
theorem isSome_local?_provide (hid : id < s.size) (key k : κ) (value : α) (q : FrameId) :
    ((s.provide id key value).2.local? q k).isSome ↔
      (q = id ∧ k = key) ∨ (s.local? q k).isSome := by
  rw [local?_provide]
  by_cases hsame : q = id ∧ k = key
  · obtain ⟨rfl, rfl⟩ := hsame
    cases haccepted : (s.provide q k value).1 with
    | true => simp
    | false =>
      have hbound := (provide_accepts_iff hid k value).not.mp (by simp [haccepted])
      simpa using Option.isSome_iff_ne_none.mpr hbound
  · simp [hsame]

end Store

namespace Replay

namespace State

/-- The frames are linked as they should be, and the current one lies in the root frame that the replay has started
in. -/
structure Valid (s : State) : Prop where
  store : s.store.WellFormed
  current : s.current < s.store.size
  root : s.store.parent? start.current = none
  inside : s.store.Encloses start.current s.current

theorem valid_start : start.Valid where
  store := Store.wellFormed_root Store.wellFormed_empty Store.defaultLabel
  current := Nat.zero_lt_one
  root := Store.parent?_root Store.empty Store.defaultLabel
  inside := .refl

section Valid
variable {s : State} (h : s.Valid)
include h

theorem Valid.extended {store : Store String Unit} (hstore : store.WellFormed)
    (hext : s.store.Extends store) : Valid { s with store := store } where
  store := hstore
  current := Nat.lt_of_lt_of_le h.current hext.size_le
  root := (hext.parent? (Nat.lt_of_le_of_lt (h.inside.le h.store) h.current)).trans h.root
  inside := hext.encloses h.inside

theorem Valid.push (label : String) : (s.push label).Valid := by
  have hstore := Store.wellFormed_push h.store h.current label
  have hpushed := h.extended hstore (Store.push_extends s.store s.current label)
  have hsize : s.store.size < (s.store.push s.current label).2.size := by
    rw [Store.size_push]
    exact Nat.lt_succ_self _
  exact ⟨hstore, hsize, hpushed.root,
    .head (Store.parent?_push s.store s.current label) hpushed.inside⟩

theorem Valid.pop : s.pop.Valid := by
  refine ⟨h.store, Store.pop_lt_size h.store h.current, h.root, ?_⟩
  change s.store.Encloses start.current ((s.store.parent? s.current).getD s.current)
  cases hp : s.store.parent? s.current with
  | none => exact h.inside
  | some p =>
    rcases (Store.encloses_of_child hp).mp h.inside with hroot | hinside
    · have hnone := h.root
      rw [hroot, hp] at hnone
      simp at hnone
    · exact hinside

theorem Valid.provide (name : String) (offset : UInt32) : (s.provide name offset).Valid := by
  have hshapes := Store.shapes_provide s.store s.current name ()
  have hprovided := h.extended (Store.wellFormed_of_shapes h.store hshapes)
    (Store.extends_of_shapes hshapes)
  exact ⟨hprovided.store, hprovided.current, hprovided.root, hprovided.inside⟩

theorem Valid.enter (name : String) : (s.enter name).Valid := ⟨h.store, h.current, h.root, h.inside⟩

theorem Valid.leave (name : String) : (s.leave name).Valid := ⟨h.store, h.current, h.root, h.inside⟩

theorem Valid.apply (e : Event Call) : (s.apply e).Valid := by
  cases e with
  | push label => exact h.push label
  | pop => exact h.pop
  | provide c offset => exact h.provide (bindingName c) offset

end Valid

/-- The state of a replay after the given events. -/
def after (es : List (Event Call)) : State := es.foldl apply start

theorem after_concat (es : List (Event Call)) (e : Event Call) :
    after (es ++ [e]) = (after es).apply e := by
  simp [after]

theorem valid_after (es : List (Event Call)) : (after es).Valid := by
  induction es using List.reverseRecOn with
  | nil => exact valid_start
  | append_singleton es e ih =>
    rw [after_concat]
    exact ih.apply e

/-- The store refuses a provide of the call. -/
def Refuses (s : State) (c : Call) : Prop :=
  (s.store.provide s.current (bindingName c) ()).1 = false

theorem mem_rejected_provide {s : State} {c : Call} {p offset : UInt32} :
    p ∈ (s.provide (bindingName c) offset).rejected ↔
      p ∈ s.rejected ∨ p = offset ∧ s.Refuses c := by
  cases haccepted : (s.store.provide s.current (bindingName c) ()).1 with
  | true => simp [provide, Refuses, haccepted]
  | false => simp [provide, Refuses, haccepted]

end State

open State

/-- One of the events happens in such a state. -/
def Happens (P : State → Event Call → Prop) (es : List (Event Call)) : Prop :=
  ∃ before e rest, es = before ++ e :: rest ∧ P (after before) e

/-- One of the events is a provide of the call, with the given frame current. -/
def ProvidedIn (id : FrameId) (c : Call) (es : List (Event Call)) : Prop :=
  Happens (fun s e => s.current = id ∧ ∃ offset, e = .provide c offset) es

/-- One of the events is a provide at the given place that the store refuses. -/
def RefusedAt (p : UInt32) (es : List (Event Call)) : Prop :=
  Happens (fun s e => ∃ c, e = .provide c p ∧ s.Refuses c) es

theorem not_happens_nil {P : State → Event Call → Prop} : ¬ Happens P [] := by
  rintro ⟨before, e, rest, hsplit, _⟩
  simp at hsplit

/-- The last event happens after the others, and the others as they did without it. -/
theorem happens_concat {P : State → Event Call → Prop} {es : List (Event Call)} {e : Event Call} :
    Happens P (es ++ [e]) ↔ Happens P es ∨ P (after es) e := by
  constructor
  · rintro ⟨before, x, rest, hsplit, hx⟩
    rcases List.eq_nil_or_concat rest with rfl | ⟨between, z, rfl⟩
    · obtain ⟨rfl, rfl⟩ := List.append_singleton_inj.mp hsplit
      exact .inr hx
    · have hassoc : before ++ x :: between.concat z = (before ++ x :: between) ++ [z] := by simp
      rw [hassoc] at hsplit
      exact .inl ⟨before, x, between, (List.append_singleton_inj.mp hsplit).1, hx⟩
  · rintro (⟨before, x, rest, rfl, hx⟩ | he)
    · exact ⟨before, x, rest ++ [e], by simp, hx⟩
    · exact ⟨es, e, [], rfl, he⟩

/-- A frame binds the names that have been provided in it and no others. -/
theorem isSome_local?_after (es : List (Event Call)) (id : FrameId) (name : String) :
    ((after es).store.local? id name).isSome ↔ ∃ c, ProvidedIn id c es ∧ bindingName c = name := by
  induction es using List.reverseRecOn with
  | nil =>
    have hnew : start.store.local? id name = none := Store.local?_add Store.empty rfl id name
    simp [after, hnew, ProvidedIn, not_happens_nil]
  | append_singleton es e ih =>
    have hold (h : ∀ c offset, e ≠ .provide c offset)
        (hkept : ((after es).apply e).store.local? id name = (after es).store.local? id name) :
        ((after (es ++ [e])).store.local? id name).isSome ↔
          ∃ c, ProvidedIn id c (es ++ [e]) ∧ bindingName c = name := by
      rw [after_concat, hkept, ih]
      simp [ProvidedIn, happens_concat, h]
    -- a push adds a frame that binds nothing, and a pop leaves the frames as they are
    cases e with
    | push label => exact hold (by simp) (Store.local?_add (after es).store rfl id name)
    | pop => exact hold (by simp) rfl
    | provide c offset =>
      have hbound := Store.isSome_local?_provide (valid_after es).current (bindingName c) name () id
      rw [after_concat]
      refine hbound.trans ?_
      rw [ih]
      simp only [ProvidedIn, happens_concat, Event.provide.injEq]
      constructor
      · rintro (⟨rfl, rfl⟩ | ⟨b, hb, hname⟩)
        · exact ⟨c, .inr ⟨rfl, offset, rfl, rfl⟩, rfl⟩
        · exact ⟨b, .inl hb, hname⟩
      · rintro ⟨b, hb | ⟨rfl, _, rfl, _⟩, rfl⟩
        · exact .inr ⟨b, hb, rfl⟩
        · exact .inl ⟨rfl, rfl⟩

/-- A provide is refused exactly if one under the same name came before it in the same frame. -/
theorem refuses_after_iff (es : List (Event Call)) (c : Call) :
    (after es).Refuses c ↔
      ∃ b, ProvidedIn (after es).current b es ∧ bindingName b = bindingName c := by
  rw [← isSome_local?_after, Option.isSome_iff_ne_none, Ne,
    ← Store.provide_accepts_iff (valid_after es).current (bindingName c) (), Bool.not_eq_true]
  rfl

theorem mem_rejected_after_iff (es : List (Event Call)) (p : UInt32) :
    p ∈ (after es).rejected ↔ RefusedAt p es := by
  induction es using List.reverseRecOn with
  | nil => simp [after, start, RefusedAt, not_happens_nil]
  | append_singleton es e ih =>
    rw [RefusedAt, happens_concat, after_concat]
    cases e with
    | push label => simpa [apply, push, RefusedAt] using ih
    | pop => simpa [apply, pop, RefusedAt] using ih
    | provide c offset =>
      rw [apply, mem_rejected_provide, ih]
      simp [RefusedAt, eq_comm, and_comm]

end Replay

/-- The places of a replay are those of the provides that the store refuses. -/
theorem Scenario.mem_replay_iff (s : Scenario) (entry : String) (p : UInt32) :
    p ∈ s.replay entry ↔ Replay.RefusedAt p (s.events entry) := by
  have hrun := Replay.runRoutine_eq (v := {}) s.routines (s.routines.length + 1)
    (entryName entry) none Replay.State.start
  rw [← Replay.mem_rejected_after_iff]
  unfold replay
  exact Iff.of_eq (congrArg (fun u => p ∈ Replay.State.rejected u) hrun)

end AmbientScope
