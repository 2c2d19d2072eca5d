import AmbientScope.Proofs.EnclosingFrames
import AmbientScope.Proofs.RestoredScopes
import AmbientScope.Scope.Binding

/-!
# Typed resolution

Resolving a key for a value of its type fails if no frame binds the key, and if the innermost frame that does holds a
value of another type, even where a frame further out holds one of the right type. The second failure takes a provide
of a value under a type that is not its own: where there is none, every binding of every frame has the type of
its key. The types are those of any language, and values need only know theirs.
-/

set_option autoImplicit false

namespace AmbientScope

namespace Scopes
variable {τ α : Type} (typeOf : α → τ)

/-- A value is provided under its own type, if one is provided. -/
def Command.Typed : Command (TypedKey τ) α → Prop
  | .on _ (.provide key value) => typeOf value = key.type
  | _ => True

/-- Provide a value under its own type and a name, if any. -/
def Command.provideOwn (i : ContextId) (name : Option String) (value : α) : Command (TypedKey τ) α :=
  .on i (.provide ⟨typeOf value, name⟩ value)

theorem Command.typed_provideOwn (i : ContextId) (name : Option String) (value : α) :
    (provideOwn typeOf i name value).Typed typeOf := rfl

/-- Every value that a frame binds has the type of its key. -/
def BindsTyped [DecidableEq τ] (s : Scopes (TypedKey τ) α) : Prop :=
  ∀ id key v, s.store.local? id key = some v → typeOf v = key.type

variable [DecidableEq τ] {typeOf} {s : Scopes (TypedKey τ) α} {i : ContextId} {c : Context}

theorem BindsTyped.perform (hs : s.BindsTyped typeOf) {q : Command (TypedKey τ) α}
    (hq : q.Typed typeOf) : (s.perform q).2.BindsTyped typeOf := by
  intro id key v hv
  by_cases hbinding : s.binding? q = some (id, key)
  · obtain ⟨n, c, value, rfl, hn, rfl, hbound⟩ := provide_of_binding? hbinding
    rw [(perform_on hn _).2, Context.perform, Store.local?_provide, if_pos ⟨hbound, rfl, rfl⟩] at hv
    exact Option.some.inj hv ▸ hq
  · rw [local?_perform hbinding] at hv
    exact hs id key v hv

theorem BindsTyped.performAll (hs : s.BindsTyped typeOf) {commands : List (Command (TypedKey τ) α)}
    (h : ∀ q ∈ commands, q.Typed typeOf) : (s.performAll commands).2.BindsTyped typeOf := by
  induction commands generalizing s with
  | nil => exact hs
  | cons q rest ih =>
    obtain ⟨hq, hrest⟩ := List.forall_mem_cons.mp h
    exact ih (hs.perform hq) hrest

theorem bindsTyped_empty : (({} : Scopes (TypedKey τ) α)).BindsTyped typeOf := by
  intro id key v hv
  simp [Store.local?, Store.frame?, Store.empty] at hv

/-- On any contexts, after any commands. What a context resolves under a key for a value of the type of this key is:
not found exactly if no frame from the current one to the root binds the key; of the wrong type exactly if the
innermost of these frames to bind it holds a value of another type; and the value that this frame holds exactly if
it has the type. If values have only ever been provided under their own types, it is never of the wrong type. -/
theorem typed_resolution (typeOf : α → τ) (commands : List (Command (TypedKey τ) α)) (i : ContextId)
    (c : Context) (hc : (performAll {} commands).2.contexts[i]? = some c) (key : TypedKey τ) :
    let s := (performAll {} commands).2
    ∃ found, (s.perform (.on i (.resolve key))).1 = .value found ∧
      (key.foundTyped typeOf found = .error (.notFound key) ↔
        ∀ id, s.store.Encloses id c.current → s.store.local? id key = none) ∧
      (key.foundTyped typeOf found = .error (.typeMismatch key) ↔
        ∃ id v, s.store.Innermost c.current key id v ∧ typeOf v ≠ key.type) ∧
      (∀ v, key.foundTyped typeOf found = .ok v ↔
        (∃ id, s.store.Innermost c.current key id v) ∧ typeOf v = key.type) ∧
      ((∀ q ∈ commands, q.Typed typeOf) →
        ∀ k, key.foundTyped typeOf found ≠ .error (.typeMismatch k)) := by
  intro s
  have hs : s.store.WellFormed := (performAll_environments valid_empty commands).2.store
  have hmismatch : (∃ v, s.store.resolve? c.current key = some v ∧ typeOf v ≠ key.type) ↔
      ∃ id v, s.store.Innermost c.current key id v ∧ typeOf v ≠ key.type := by
    simp only [Store.resolve?_eq_some_iff hs]
    constructor
    · rintro ⟨v, ⟨id, hid⟩, hv⟩
      exact ⟨id, v, hid, hv⟩
    · rintro ⟨id, v, hid, hv⟩
      exact ⟨v, ⟨id, hid⟩, hv⟩
  refine ⟨s.store.resolve? c.current key, perform_resolve hc key, ?_, ?_, fun v => ?_, fun htyped k => ?_⟩
  · rw [TypedKey.foundTyped_eq_notFound_iff, Store.resolve?_eq_none_iff hs]
    exact and_iff_right rfl
  · rw [TypedKey.foundTyped_eq_typeMismatch_iff, hmismatch]
    exact and_iff_right rfl
  · rw [TypedKey.foundTyped_eq_ok_iff, Store.resolve?_eq_some_iff hs]
  · rw [Ne, TypedKey.foundTyped_eq_typeMismatch_iff, hmismatch]
    rintro ⟨_, id, v, hid, hv⟩
    exact hv (bindsTyped_empty.performAll htyped id key v hid.binds)

/-- A number in an outer frame, and in the inner one, where the context is, what the last command provides. -/
def numberOutside (inner : Command BindingKey Value) : List (Command BindingKey Value) :=
  [.detached, .provideOwn Value.type 0 (some "n") (.int 1), .on 0 (.push "Inner"), inner]

/-- The truth value hides the number if it is provided under the type of numbers, and not if under its own. -/
theorem typed_resolution_hidden :
    let n : BindingKey := ⟨.int, some "n"⟩
    let mistyped := numberOutside (.on 0 (.provide n (.bool true)))
    let typed := numberOutside (.provideOwn Value.type 0 (some "n") (.bool true))
    (performAll {} mistyped).2.contexts[0]? = some ⟨1, []⟩ ∧
      (∃ found, ((performAll {} mistyped).2.perform (.on 0 (.resolve n))).1 = .value found ∧
        n.foundTyped found = .error (.typeMismatch n)) ∧
      (performAll {} typed).2.contexts[0]? = some ⟨1, []⟩ ∧ (∀ q ∈ typed, q.Typed Value.type) ∧
      ∃ found, ((performAll {} typed).2.perform (.on 0 (.resolve n))).1 = .value found ∧
        n.foundTyped found = .ok (.int 1) ∧ ∀ k, n.foundTyped found ≠ .error (.typeMismatch k) := by
  intro n mistyped typed
  have hs (commands : List (Command BindingKey Value)) : (performAll {} commands).2.store.WellFormed :=
    (performAll_environments valid_empty commands).2.store
  have htyped : ∀ q ∈ typed, q.Typed Value.type := by
    simp only [typed, numberOutside, List.forall_mem_cons, Command.typed_provideOwn, true_and]
    exact ⟨trivial, trivial, fun q hq => absurd hq List.not_mem_nil⟩
  obtain ⟨hidden, hhidden, -, hmismatch, -, -⟩ := typed_resolution Value.type mistyped 0 ⟨1, []⟩ rfl n
  obtain ⟨found, hfound, -, -, hok, hnever⟩ := typed_resolution Value.type typed 0 ⟨1, []⟩ rfl n
  have hinner : (performAll {} mistyped).2.store.Innermost 1 n 1 (.bool true) :=
    Store.innermost_self (hs mistyped) rfl
  have houter : (performAll {} typed).2.store.Innermost 1 n 0 (.int 1) :=
    (Store.innermost_self (hs typed) rfl).outward rfl rfl
  exact ⟨rfl, ⟨hidden, hhidden, hmismatch.mpr ⟨1, .bool true, hinner, by decide⟩⟩, rfl, htyped,
    found, hfound, (hok _).mpr ⟨⟨0, houter⟩, rfl⟩, hnever htyped⟩

end Scopes

end AmbientScope
