import AmbientScope.Proofs.Duplicates
import AmbientScope.Proofs.Execution

/-!
# Refusals

The store refuses a provide when its frame binds the key, and a check reports a provide when it finds an earlier one back
to the nearest push. Both come to the same list of places, the provides that repeat a key since the latest push: the store
because nothing is provided in a frame that was returned to, the check because no push is hidden.
-/

set_option autoImplicit false

namespace AmbientScope

namespace Event
variable {α κ : Type}

/-- The places of the provides whose key has been provided since the latest push. -/
def refused [DecidableEq κ] (key : α → κ) (seen : List κ) : List (Event α) → List UInt32
  | [] => []
  | .push _ :: rest => refused key [] rest
  | .pop :: rest => refused key seen rest
  | .provide value offset :: rest =>
    (if key value ∈ seen then [offset] else []) ++ refused key (key value :: seen) rest

/-- Nothing is provided before the first push. -/
def PushesFirst (es : List (Event α)) : Prop :=
  ∀ before value offset after, es = before ++ .provide value offset :: after →
    ∃ label, .push label ∈ before

/-- Nothing is provided after a pop before the next push. -/
def PushesAfterPop (es : List (Event α)) : Prop :=
  ∀ before after, es = before ++ .pop :: after → PushesFirst after

/-- The same as a test; `left` says that there has been a pop since the latest push. -/
def orderly : (left : Bool) → List (Event α) → Bool
  | _, [] => true
  | _, .push _ :: rest => orderly false rest
  | _, .pop :: rest => orderly true rest
  | left, .provide _ _ :: rest => !left && orderly left rest

section Orderly
variable {e : Event α} {es : List (Event α)}

theorem pushesFirst_push {label : String} : PushesFirst (.push label :: es) := by
  intro before value offset after h
  cases before with
  | nil => simp at h
  | cons e before =>
    obtain ⟨rfl, _⟩ := List.cons.inj h
    exact ⟨label, .head _⟩

theorem pushesFirst_pop : PushesFirst (.pop :: es) ↔ PushesFirst es := by
  constructor
  · intro h before value offset after he
    obtain ⟨label, hmem⟩ := h (.pop :: before) value offset after (by rw [he]; rfl)
    exact ⟨label, by simpa using hmem⟩
  · intro h before value offset after he
    cases before with
    | nil => simp at he
    | cons e before =>
      obtain ⟨label, hmem⟩ := h before value offset after (List.cons.inj he).2
      exact ⟨label, .tail _ hmem⟩

theorem not_pushesFirst_provide {value : α} {offset : UInt32} :
    ¬ PushesFirst (.provide value offset :: es) := by
  intro h
  obtain ⟨_, hmem⟩ := h [] value offset es rfl
  exact absurd hmem List.not_mem_nil

theorem pushesAfterPop_cons :
    PushesAfterPop (e :: es) ↔ (e = .pop → PushesFirst es) ∧ PushesAfterPop es := by
  constructor
  · intro h
    refine ⟨fun he => h [] es (by rw [he]; rfl), fun before after hes => ?_⟩
    exact h (e :: before) after (by rw [hes]; rfl)
  · rintro ⟨hfirst, hrest⟩ before after he
    cases before with
    | nil =>
      obtain ⟨hpop, rfl⟩ := List.cons.inj he
      exact hfirst hpop
    | cons _ before => exact hrest before after (List.cons.inj he).2

theorem orderly_iff {left : Bool} :
    orderly left es = true ↔ PushesAfterPop es ∧ (left = true → PushesFirst es) := by
  induction es generalizing left with
  | nil => simp [orderly, PushesAfterPop, PushesFirst]
  | cons e rest ih =>
    rw [pushesAfterPop_cons]
    cases e with
    | push label => simp [orderly, ih, pushesFirst_push]
    | pop =>
      simp only [orderly, ih, pushesFirst_pop, forall_const]
      constructor
      · rintro ⟨hrest, hfirst⟩
        exact ⟨⟨hfirst, hrest⟩, fun _ => hfirst⟩
      · rintro ⟨⟨hfirst, hrest⟩, _⟩
        exact ⟨hrest, hfirst⟩
    | provide value offset => cases left <;> simp [orderly, ih, not_pushesFirst_provide]

theorem orderly_eq_true_iff : orderly false es = true ↔ PushesAfterPop es := by
  simp [orderly_iff]

end Orderly

end Event

namespace Replay

open Event

/-- The current frame binds the given keys and no others. -/
def Binds (s : State) (keys : List String) : Prop :=
  ∃ f, s.store.frame? s.current = some f ∧ ∀ key, f.bindings.contains key = true ↔ key ∈ keys

theorem binds_start : Binds State.start [] :=
  ⟨{ label := Store.defaultLabel }, rfl, by simp [FirstWrite.contains]⟩

theorem binds_push (s : State) (label : String) : Binds (s.push label) [] := by
  refine ⟨{ label := label, parent := some s.current, depth := s.store.depth s.current + 1 }, ?_, ?_⟩
  · simp [State.push, Store.push, Store.add, Store.frame?]
  · simp [FirstWrite.contains]

theorem contains_insert_iff {f : Frame String Unit} {keys : List String} (key : String)
    (h : ∀ k, f.bindings.contains k = true ↔ k ∈ keys) (k : String) :
    (f.bindings.insert key ()).contains k = true ↔ k ∈ key :: keys := by
  rw [List.mem_cons, ← h k]
  simp only [FirstWrite.contains, FirstWrite.get?_insert]
  by_cases hk : k = key
  · simp [hk]
  · simp [hk]

section Provide
variable {s : State} {keys : List String} (h : Binds s keys) (key : String) (offset : UInt32)
include h

theorem binds_provide : Binds (s.provide key offset) (key :: keys) := by
  obtain ⟨f, hf, hkeys⟩ := h
  have hlt : s.current < s.store.frames.length := (List.getElem?_eq_some_iff.mp hf).1
  by_cases hbound : f.bindings.contains key = true
  · have hsame : (s.provide key offset).store = s.store := by
      simp [State.provide, Store.provide, hf, hbound]
    refine ⟨f, by rw [hsame]; exact hf, fun k => ?_⟩
    rw [hkeys, List.mem_cons]
    constructor
    · exact .inr
    · rintro (rfl | hk)
      · exact (hkeys k).mp hbound
      · exact hk
  · refine ⟨{ f with bindings := f.bindings.insert key () }, ?_, contains_insert_iff key hkeys⟩
    have hframes : (s.provide key offset).store.frames =
        s.store.frames.set s.current { f with bindings := f.bindings.insert key () } := by
      simp [State.provide, Store.provide, hf, hbound]
    rw [Store.frame?, hframes]
    exact List.getElem?_set_self hlt

theorem rejected_provide :
    (s.provide key offset).rejected = s.rejected ++ if key ∈ keys then [offset] else [] := by
  obtain ⟨f, hf, hkeys⟩ := h
  by_cases hbound : f.bindings.contains key = true
  · simp [State.provide, Store.provide, hf, hbound, (hkeys key).mp hbound]
  · have hnew : key ∉ keys := fun hk => hbound ((hkeys key).mpr hk)
    simp [State.provide, Store.provide, hf, hbound, hnew]

end Provide

/-- Between a pop and the next push the frame may bind anything, since nothing is provided there. -/
theorem rejected_foldl (es : List (Event Call)) {left : Bool} {s : State} {keys : List String}
    (ho : orderly left es = true) (h : left = false → Binds s keys) :
    (es.foldl State.apply s).rejected = s.rejected ++ refused bindingName keys es := by
  induction es generalizing left s keys with
  | nil => simp [refused]
  | cons e rest ih =>
    rw [List.foldl_cons]
    cases e with
    | push label => exact ih (s := s.push label) ho fun _ => binds_push s label
    | pop => exact ih (s := s.pop) ho (by simp)
    | provide c offset =>
      obtain ⟨hin, hrest⟩ : left = false ∧ orderly left rest = true := by
        simpa [orderly] using ho
      have hbinds := h hin
      have hafter := ih (s := s.provide (bindingName c) offset) hrest
        fun _ => binds_provide hbinds _ offset
      rw [State.apply, hafter, rejected_provide hbinds, refused, List.append_assoc]

end Replay

def Scenario.entryName (entry : String) : String :=
  namespaceName ++ "." ++ typeName ++ "." ++ entry

/-- What a run of the entry does to the scopes. -/
def Scenario.events (s : Scenario) (entry : String) : List (Event Call) :=
  Replay.events {} s.routines (s.routines.length + 1) [] (entryName entry) none

theorem Scenario.replay_eq_refused {s : Scenario} {entry : String}
    (h : Event.PushesAfterPop (s.events entry)) :
    s.replay entry = Event.refused Replay.bindingName [] (s.events entry) := by
  have hrun := Replay.runRoutine_eq (v := {}) s.routines (s.routines.length + 1)
    (entryName entry) none Replay.State.start
  have hrejected := Replay.rejected_foldl (s.events entry) (Event.orderly_eq_true_iff.mpr h)
    fun _ => Replay.binds_start
  unfold replay
  exact (congrArg Replay.State.rejected hrun).trans hrejected

/-- What an effect does for sure, when its site is at the given place. -/
def Effect.event? (offset : UInt32) (e : Effect) : Option (Event ValueKey) :=
  if e.hidden then none
  else
    match e.action with
    | .push label => some (.push label)
    | .provide key => some (.provide key offset)
    | .resolve _ => none

namespace Detection

open Event

section Events
variable {x : Site × Effect}

/-- What an effect of the stream does for sure. -/
def event? (x : Site × Effect) : Option (Event ValueKey) := x.2.event? x.1.span.start

theorem event?_of_pushes (h : Pushes x) (hshown : x.2.hidden = false) :
    ∃ label, event? x = some (.push label) := by
  obtain ⟨label, ha⟩ := h
  exact ⟨label, by simp [event?, Effect.event?, ha, hshown]⟩

theorem event?_of_provides {key : ValueKey} (h : Provides x key) :
    event? x = some (.provide key x.1.span.start) := by
  simp [event?, Effect.event?, h.1, h.2]

theorem event?_of_other (hpush : ¬ Pushes x) (hprov : ∀ key, ¬ Provides x key) :
    event? x = none := by
  unfold event? Effect.event?
  cases hh : x.2.hidden with
  | true => rfl
  | false =>
    cases ha : x.2.action with
    | push label => exact absurd ⟨label, ha⟩ hpush
    | provide key => exact absurd ⟨ha, hh⟩ (hprov key)
    | resolve key => rfl

/-- Looking back, one finds provides of the given keys and of no others. -/
def Sees (t : Trace) (keys : List ValueKey) : Prop :=
  ∀ key, (t.previousProvide? key).isSome = true ↔ key ∈ keys

theorem sees_nil : Sees [] [] := by
  intro key
  simp [Trace.previousProvide?]

theorem sees_push (t : Trace) (h : Pushes x) : Sees (entry x :: t) [] := by
  intro key
  simp [previousProvide?_push t (isPush_iff.mpr h)]

variable {t : Trace} {keys : List ValueKey} (h : Sees t keys)
include h

theorem Sees.provides {key : ValueKey} (hx : Provides x key) :
    Sees (entry x :: t) (key :: keys) := by
  intro k
  have hflag := Bool.eq_false_iff.mpr fun hp => hx.not_pushes (isPush_iff.mp hp)
  by_cases hk : (entry x).provides k = true
  · obtain rfl := (provides_iff.mp hk).key_unique hx
    simp [previousProvide?_provides t hflag hk]
  · have hne : k ≠ key := fun he => hk (provides_iff.mpr (he ▸ hx))
    rw [previousProvide?_other t hflag (Bool.eq_false_iff.mpr hk), h k]
    simp [hne]

theorem Sees.other (hpush : ¬ Pushes x) (hprov : ∀ key, ¬ Provides x key) :
    Sees (entry x :: t) keys := by
  intro k
  have hflag := Bool.eq_false_iff.mpr fun hp => hpush (isPush_iff.mp hp)
  have hother := Bool.eq_false_iff.mpr fun hp => hprov k (provides_iff.mp hp)
  rw [previousProvide?_other t hflag hother, h k]

theorem starts_collision? (r : Routine) {key : ValueKey} (hx : Provides x key) :
    (collision? r t x).toList.map (fun d => d.span.map Span.start) =
      (if key ∈ keys then [x.1.span.start] else []).map some := by
  rw [collision?_of_provides t hx]
  cases hprev : t.previousProvide? key with
  | none =>
    have hnew : key ∉ keys := fun hmem => by simpa [hprev] using (h key).mpr hmem
    simp [hnew]
  | some n =>
    have hold : key ∈ keys := (h key).mp (by simp [hprev])
    have hspan : (duplicate r x.1 key n).span = some x.1.span := by
      unfold duplicate
      split <;> rfl
    simp [hold, hspan]

end Events

/-- The duplicates stand where a key is repeated, if every push of the stream is sure to run. -/
theorem starts_collisions (r : Routine) (es : List (Site × Effect))
    (hpush : ∀ x ∈ es, Pushes x → x.2.hidden = false) {t : Trace} {keys : List ValueKey}
    (h : Sees t keys) :
    (collisions r t es).map (fun d => d.span.map Span.start) =
      (refused (fun key => key) keys (es.filterMap event?)).map some := by
  induction es generalizing t keys with
  | nil => rfl
  | cons x rest ih =>
    obtain ⟨hx, hrest⟩ := List.forall_mem_cons.mp hpush
    rw [collisions, List.map_append]
    by_cases hprov : ∃ key, Provides x key
    · obtain ⟨key, hkey⟩ := hprov
      rw [List.filterMap_cons_some (event?_of_provides hkey), refused, List.map_append,
        starts_collision? h r hkey, ih hrest (h.provides hkey)]
    · have hnone := not_exists.mp hprov
      rw [collision?_of_not_provides t hnone]
      by_cases hp : Pushes x
      · obtain ⟨label, hevent⟩ := event?_of_pushes hp (hx hp)
        rw [List.filterMap_cons_some hevent, refused]
        exact ih hrest (sees_push t hp)
      · rw [List.filterMap_cons_none (event?_of_other hp hnone)]
        exact ih hrest (h.other hp hnone)

end Detection

end AmbientScope
