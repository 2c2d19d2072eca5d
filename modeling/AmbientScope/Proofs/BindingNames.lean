import AmbientScope.CallGraph.Lowering
import AmbientScope.Proofs.ReplayedScopes

/-!
# Names of bindings

A check keeps the type and the key of a provide apart, and a replay makes one name of the two. Both tell the same
provides apart, except for calls that clash: one has a bracket in its type or in its key where the other has the one
that the name puts between the two, or one names no type and the other the type that a check or a replay puts there.
-/

set_option autoImplicit false

namespace AmbientScope

/-- Two lists with the same element in the middle are the same if both parts are, or if the element occurs again in
one of the parts. -/
theorem append_cons_eq_iff {α : Type} {a : α} {xs ys us vs : List α} :
    xs ++ a :: us = ys ++ a :: vs ↔
      (xs = ys ∧ us = vs) ∨ (∃ ms, ys = xs ++ a :: ms ∧ us = ms ++ a :: vs) ∨
        ∃ ms, xs = ys ++ a :: ms ∧ vs = ms ++ a :: us := by
  rw [List.append_eq_append_iff]
  constructor
  · rintro (⟨ms, rfl, hms⟩ | ⟨ms, rfl, hms⟩)
    · cases ms with
      | nil => exact .inl ⟨by simp, (List.cons.inj hms).2⟩
      | cons m ms =>
        obtain ⟨rfl, hus⟩ := List.cons.inj hms
        exact .inr (.inl ⟨ms, rfl, hus⟩)
    · cases ms with
      | nil => exact .inl ⟨by simp, (List.cons.inj hms).2.symm⟩
      | cons m ms =>
        obtain ⟨rfl, hvs⟩ := List.cons.inj hms
        exact .inr (.inr ⟨ms, rfl, hvs⟩)
  · rintro (⟨rfl, rfl⟩ | ⟨ms, rfl, rfl⟩ | ⟨ms, rfl, rfl⟩)
    · exact .inl ⟨[], by simp, rfl⟩
    · exact .inl ⟨a :: ms, rfl, rfl⟩
    · exact .inr ⟨a :: ms, rfl, rfl⟩

theorem append_bracket_eq_iff {s t j k : String} :
    s ++ "[" ++ j = t ++ "[" ++ k ↔
      (s = t ∧ j = k) ∨ (∃ m, t = s ++ "[" ++ m ∧ j = m ++ "[" ++ k) ∨
        ∃ m, s = t ++ "[" ++ m ∧ k = m ++ "[" ++ j := by
  have hinj {u v : String} : u = v ↔ u.toList = v.toList := String.toList_inj.symm
  constructor
  · intro heq
    have hlists : s.toList ++ '[' :: j.toList = t.toList ++ '[' :: k.toList := by
      simpa using congrArg String.toList heq
    rcases append_cons_eq_iff.mp hlists with ⟨hs, hj⟩ | ⟨ms, ht, hj⟩ | ⟨ms, hs, hk⟩
    · exact .inl ⟨hinj.mpr hs, hinj.mpr hj⟩
    · exact .inr (.inl ⟨String.ofList ms, hinj.mpr (by simpa using ht), hinj.mpr (by simpa using hj)⟩)
    · exact .inr (.inr ⟨String.ofList ms, hinj.mpr (by simpa using hs), hinj.mpr (by simpa using hk)⟩)
  · rintro (⟨rfl, rfl⟩ | ⟨m, rfl, rfl⟩ | ⟨m, rfl, rfl⟩)
    · rfl
    · simp [String.append_assoc]
    · simp [String.append_assoc]

namespace Call

/-- The type as far as one is named. -/
def typeText (c : Call) : String := c.valueType.getD ""

/-- The type of the second call reads as that of the first with its key, or with its key up to a bracket. -/
inductive ReadsInto (a b : Call) : Prop
  | whole (key : String) (ha : a.key = some key) (hb : b.key = none)
    (htype : b.typeText = a.typeText ++ "[" ++ key ++ "]")
  | part (front key : String) (ha : a.key = some (front ++ "[" ++ key)) (hb : b.key = some key)
    (htype : b.typeText = a.typeText ++ "[" ++ front)

/-- The first call names no type, and the second one a type that stands for none. -/
structure Untyped (a b : Call) : Prop where
  missing : a.valueType = none
  named : b.valueType = some "" ∨ b.valueType = some unknownType
  key : a.key = b.key

/-- One of the calls can be taken for the other, in a replay or in a check. -/
def Clashes (a b : Call) : Prop :=
  (a.ReadsInto b ∨ b.ReadsInto a) ∨ a.Untyped b ∨ b.Untyped a

variable {a b : Call}

theorem ReadsInto.key_ne (h : a.ReadsInto b) : a.key ≠ b.key := by
  cases h with
  | whole key ha hb _ => simp [ha, hb]
  | part front key ha hb _ =>
    rw [ha, hb]
    intro heq
    have hlength := congrArg String.length (Option.some.inj heq)
    simp [String.length_append] at hlength

theorem not_readsInto (ha : a.key = none) : ¬ a.ReadsInto b := by
  intro h
  cases h with
  | whole key hkey => simp [ha] at hkey
  | part front key hkey => simp [ha] at hkey

theorem readsInto_iff_whole {j : String} (ha : a.key = some j) (hb : b.key = none) :
    a.ReadsInto b ↔ a.typeText ++ "[" ++ j ++ "]" = b.typeText := by
  constructor
  · intro h
    cases h with
    | whole key hkey _ htype =>
      obtain rfl := Option.some.inj (ha.symm.trans hkey)
      exact htype.symm
    | part front key _ hkey => simp [hb] at hkey
  · intro htype
    exact .whole j ha hb htype.symm

theorem readsInto_iff_part {j k : String} (ha : a.key = some j) (hb : b.key = some k) :
    a.ReadsInto b ↔ ∃ front, b.typeText = a.typeText ++ "[" ++ front ∧ j = front ++ "[" ++ k := by
  constructor
  · intro h
    cases h with
    | whole key _ hkey => simp [hb] at hkey
    | part front key hfront hkey htype =>
      obtain rfl := Option.some.inj (hb.symm.trans hkey)
      exact ⟨front, htype, Option.some.inj (ha.symm.trans hfront)⟩
  · rintro ⟨front, htype, rfl⟩
    exact .part front k ha hb htype

/-- With the same key, a check and a replay differ about the calls only over a type that is missing. -/
theorem typeText_eq_iff_not_untyped (hkey : a.key = b.key) :
    (a.typeText = b.typeText ↔ a.valueKey = b.valueKey) ↔ ¬ (a.Untyped b ∨ b.Untyped a) := by
  have huntyped {a b : Call} (hkey : a.key = b.key) :
      a.Untyped b ↔ a.valueType = none ∧ (b.valueType = some "" ∨ b.valueType = some unknownType) :=
    ⟨fun h => ⟨h.missing, h.named⟩, fun h => ⟨h.1, h.2, hkey⟩⟩
  rw [huntyped hkey, huntyped hkey.symm]
  simp only [typeText, valueKey, ValueKey.mk.injEq, hkey, and_true]
  have hword : unknownType ≠ "" := by decide
  cases a.valueType with
  | none =>
    cases b.valueType with
    | none => simp
    | some t => by_cases ht : t = "" <;> simp [ht, hword, eq_comm]
  | some s =>
    cases b.valueType with
    | none => by_cases hs : s = "" <;> simp [hs, hword.symm]
    | some t => simp

end Call

namespace Replay
variable {a b : Call}

/-- Calls are bound under one name if they agree in the type and the key, or if one reads into the other. -/
theorem bindingName_eq_iff_parts :
    bindingName a = bindingName b ↔
      (a.typeText = b.typeText ∧ a.key = b.key) ∨ a.ReadsInto b ∨ b.ReadsInto a := by
  have hunkeyed {c : Call} (hc : c.key = none) : bindingName c = c.typeText := by
    simp only [bindingName, hc, Call.typeText]
  have hkeyed {c : Call} {key : String} (hc : c.key = some key) :
      bindingName c = c.typeText ++ "[" ++ key ++ "]" := by
    simp only [bindingName, hc, Call.typeText]
  cases ha : a.key with
  | none =>
    rw [hunkeyed ha]
    simp only [Call.not_readsInto ha, false_or]
    cases hb : b.key with
    | none => simp [hunkeyed hb, Call.not_readsInto hb]
    | some k => simp [hkeyed hb, Call.readsInto_iff_whole hb ha, eq_comm]
  | some j =>
    rw [hkeyed ha]
    cases hb : b.key with
    | none => simp [hunkeyed hb, Call.readsInto_iff_whole ha hb, Call.not_readsInto hb]
    | some k =>
      -- both names end in the same bracket, so the one after the type decides
      have hbracket : a.typeText ++ "[" ++ j ++ "]" = b.typeText ++ "[" ++ k ++ "]" ↔
          a.typeText ++ "[" ++ j = b.typeText ++ "[" ++ k := String.append_left_inj _
      rw [hkeyed hb, hbracket, append_bracket_eq_iff, Call.readsInto_iff_part ha hb,
        Call.readsInto_iff_part hb ha, Option.some.injEq]

theorem bindingName_eq_iff_valueKey_eq (a b : Call) :
    (bindingName a = bindingName b ↔ a.valueKey = b.valueKey) ↔ ¬ a.Clashes b := by
  by_cases hreads : a.ReadsInto b ∨ b.ReadsInto a
  · have hkey : a.key ≠ b.key := by
      rcases hreads with h | h
      · exact h.key_ne
      · exact h.key_ne.symm
    have hname : bindingName a = bindingName b := bindingName_eq_iff_parts.mpr (.inr hreads)
    have hvalue : a.valueKey ≠ b.valueKey := fun h => hkey (congrArg ValueKey.name h)
    simp [Call.Clashes, hreads, hname, hvalue]
  · have hparts : bindingName a = bindingName b ↔ a.typeText = b.typeText ∧ a.key = b.key := by
      rw [bindingName_eq_iff_parts]
      simp [hreads]
    rw [hparts]
    by_cases hkey : a.key = b.key
    · have hclash : a.Clashes b ↔ a.Untyped b ∨ b.Untyped a := by simp [Call.Clashes, hreads]
      rw [hclash, ← Call.typeText_eq_iff_not_untyped hkey]
      simp [hkey]
    · have hvalue : a.valueKey ≠ b.valueKey := fun h => hkey (congrArg ValueKey.name h)
      have hclash : ¬ a.Clashes b := by
        rintro (h | h | h)
        · exact hreads h
        · exact hkey h.key
        · exact hkey h.key.symm
      simp [hkey, hvalue, hclash]

/-- A replay and a check tell provides apart alike exactly where their calls do not clash. The places of a replay are
those of the provides that the store refuses, and it refuses one exactly if another one came before it in the same
frame, with the same key and no clash between the two, or with another key and a clash. -/
theorem names_tell_apart_unless_clashing (a b : Call) :
    ((bindingName a = bindingName b ↔ a.valueKey = b.valueKey) ↔ ¬ a.Clashes b) ∧
      (∀ (s : Scenario) (entry : String) (p : UInt32),
        p ∈ s.replay entry ↔ RefusedAt p (s.events entry)) ∧
      ∀ (es : List (Event Call)) (c : Call), (State.after es).Refuses c ↔
        ∃ d, ProvidedIn (State.after es).current d es ∧
          (d.valueKey = c.valueKey ∧ ¬ d.Clashes c ∨ d.valueKey ≠ c.valueKey ∧ d.Clashes c) := by
  refine ⟨bindingName_eq_iff_valueKey_eq a b, Scenario.mem_replay_iff, fun es c => ?_⟩
  rw [refuses_after_iff]
  refine exists_congr fun d => and_congr_right fun _ => ?_
  have hiff := bindingName_eq_iff_valueKey_eq d c
  tauto

/-- An array is provided, and an item under an empty key. -/
def arrayAndItem : Scenario :=
  ⟨[Scenario.routine "Main" none [] none
    [Scenario.provide "Item[]" 1, Scenario.provideNamed "Item" "" 2]]⟩

/-- A check finds nothing wrong with the two, and a replay is refused the second one. -/
theorem array_named_like_item :
    (∃ g u, CallGraph.ofProgram {} arrayAndItem.program = .ok g ∧
      check g {} false {} 0 = (.ok [], u)) ∧
      arrayAndItem.replay "Main" = [2] ∧
      ¬ ∀ a b : Call, bindingName a = bindingName b ↔ a.valueKey = b.valueKey := by
  refine ⟨⟨_, _, rfl, rfl⟩, rfl, fun h => ?_⟩
  let provide : MethodName := ({} : Vocabulary).method .provide
  let array : Call := { target := provide, valueType := some "Item[]", span := Scenario.spanAt 1 }
  let item : Call :=
    { target := provide, valueType := some "Item", key := some "", span := Scenario.spanAt 2 }
  have hname : bindingName array = bindingName item := by decide
  have hkey : array.valueKey ≠ item.valueKey := by decide
  exact hkey ((h array item).mp hname)

end Replay

end AmbientScope
