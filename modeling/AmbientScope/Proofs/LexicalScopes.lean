import AmbientScope.Proofs.Environments
import AmbientScope.Proofs.ScopeStores

/-!
# Scopes are lexical environments

A frame of a store stands for a local scope, and a frame with all that enclose it for a chain. Commands on contexts come
to what they come to on the environments, answer by answer: frames are never moved, so that a context keeps its
chain while others push and pop, and what is bound in a frame that several share is bound for all of them.
-/

set_option autoImplicit false

namespace AmbientScope

def Frame.scope {κ α : Type} [DecidableEq κ] (f : Frame κ α) : LocalScope κ α :=
  ⟨f.label, f.bindings.get?, f.identity⟩

namespace Store
variable {κ α : Type} {s s' : Store κ α} {id p : FrameId}

def chain (s : Store κ α) (id : FrameId) : Chain := ⟨id, (s.ancestors id).tail⟩

theorem toList_chain (hs : s.WellFormed) (id : FrameId) : (s.chain id).toList = s.ancestors id :=
  (ancestors_ne_nil hs id).symm

theorem chain_of_root (h : s.parent? id = none) : s.chain id = ⟨id, []⟩ := by
  rw [chain, ancestors_of_root h, List.tail_cons]

theorem chain_of_child (hs : s.WellFormed) (h : s.parent? id = some p) :
    s.chain id = (s.chain p).push id := by
  rw [chain, ancestors_of_child hs h, List.tail_cons, Chain.push, toList_chain hs]

theorem chain_pop (hs : s.WellFormed) (id : FrameId) : s.chain (s.pop id) = (s.chain id).pop := by
  cases h : s.parent? id with
  | none => simp [pop, h, chain_of_root h, Chain.pop]
  | some p => simp [pop, h, chain_of_child hs h, Chain.pop, Chain.push, Chain.toList]

theorem outer_length (hs : s.WellFormed) (hid : id < s.size) :
    (s.chain id).outer.length = s.depth id := by
  have hlength := depth_add_one hs hid
  rw [chain, List.length_tail, ← hlength, Nat.add_sub_cancel]

theorem Extends.chain (h : s.Extends s') (hs : s.WellFormed) (hs' : s'.WellFormed)
    (hid : id < s.size) : s'.chain id = s.chain id := by
  rw [Store.chain, Store.chain, h.ancestors hs hs' hid]

variable [DecidableEq κ]

def table (s : Store κ α) : ScopeTable κ α := ⟨s.frames.map Frame.scope, s.numbered⟩

theorem getElem?_table (s : Store κ α) (id : FrameId) :
    s.table.scopes[id]? = (s.frame? id).map Frame.scope := by
  rw [table, List.getElem?_map]
  rfl

theorem label_table (s : Store κ α) (id : FrameId) : s.table.label id = s.label id := by
  rw [ScopeTable.label, getElem?_table, label, Option.map_map]
  rfl

theorem value?_table (s : Store κ α) (id : FrameId) (key : κ) :
    s.table.value? id key = s.local? id key := by
  rw [ScopeTable.value?, getElem?_table, local?]
  cases s.frame? id <;> rfl

theorem find?_table (hs : s.WellFormed) (id : FrameId) (key : κ) :
    s.table.find? (s.chain id) key = s.resolve? id key := by
  rw [ScopeTable.find?, toList_chain hs, resolve?]
  congr 1
  funext q
  exact value?_table s q key

theorem make_add (s : Store κ α) (label : String) (parent : Option FrameId) (depth : Nat) :
    s.table.make label =
      (s.size, (s.add { label := label, parent := parent, depth := depth }).2.table) := by
  simp only [ScopeTable.make, table, size, add, List.length_map, List.map_append, List.map_cons,
    List.map_nil]
  rfl

theorem make_root (s : Store κ α) (label : String) :
    s.table.make label = (s.size, (s.root label).2.table) :=
  make_add s label none 0

theorem make_push (s : Store κ α) (current : FrameId) (label : String) :
    s.table.make label = (s.size, (s.push current label).2.table) :=
  make_add s label (some current) (s.depth current + 1)

theorem identify_table (s : Store κ α) (id : FrameId) :
    s.table.identify id = ((s.identify id).1, (s.identify id).2.table) := by
  unfold ScopeTable.identify identify
  rw [getElem?_table]
  cases s.frame? id with
  | none => rfl
  | some f =>
    simp only [Option.map_some, Frame.scope]
    cases f.identity with
    | some n => rfl
    | none => simp [table, List.map_set, Frame.scope]

theorem provide_table (s : Store κ α) (id : FrameId) (key : κ) (value : α) :
    s.table.provide id key value =
      ((s.provide id key value).1, (s.provide id key value).2.table) := by
  unfold ScopeTable.provide provide
  rw [getElem?_table]
  cases s.frame? id with
  | none => rfl
  | some f =>
    simp only [Option.map_some, Frame.scope, FirstWrite.contains]
    rcases Option.eq_none_or_eq_some (f.bindings.get? key) with hbound | ⟨old, hbound⟩
    · have hvalues : (f.bindings.insert key value).get? =
          Function.update f.bindings.get? key (some value) := by
        funext k
        rw [FirstWrite.get?_insert, hbound, Function.update_apply]
        rfl
      simp [hbound, table, List.map_set, Frame.scope, hvalues]
    · simp [hbound]

end Store

namespace Context
variable {κ α : Type} {s s' : Store κ α} {c : Context}

/-- The context points at a frame, and the frames of its guards were pushed. -/
structure Valid (c : Context) (s : Store κ α) : Prop where
  current : c.current < s.size
  guards : ∀ f ∈ c.guards, ∃ p, s.parent? f = some p

theorem Valid.mono (hc : c.Valid s) (h : s.Extends s') : c.Valid s' := by
  refine ⟨Nat.lt_of_lt_of_le hc.current h.size_le, fun f hf => ?_⟩
  obtain ⟨p, hp⟩ := hc.guards f hf
  exact ⟨p, (h.parent? (Store.lt_size_of_parent? hp)).trans hp⟩

def environment (c : Context) (s : Store κ α) : Environment :=
  ⟨s.chain c.current, c.guards.map fun f => s.chain (s.pop f)⟩

/-- A context keeps its environment while others use the store. -/
theorem Valid.environment_eq (hc : c.Valid s) (h : s.Extends s') (hs : s.WellFormed)
    (hs' : s'.WellFormed) : c.environment s' = c.environment s := by
  unfold environment
  rw [h.chain hs hs' hc.current]
  congr 1
  apply List.map_congr_left
  intro f hf
  obtain ⟨p, hp⟩ := hc.guards f hf
  have hlt := Store.lt_size_of_parent? hp
  rw [h.pop hlt, h.chain hs hs' (Store.pop_lt_size hs hlt)]

section NewFrame
variable (hc : c.Valid s) (hs : s.WellFormed) (label : String)
include hc hs

theorem environment_push :
    ({ c with current := s.size } : Context).environment (s.push c.current label).2 =
      ⟨(s.chain c.current).push s.size, (c.environment s).saved⟩ := by
  have hs' := Store.wellFormed_push hs hc.current label
  have hold := hc.environment_eq (Store.push_extends s c.current label) hs hs'
  have hchain : (s.push c.current label).2.chain c.current = s.chain c.current :=
    congrArg Environment.chain hold
  unfold environment
  rw [Store.chain_of_child hs' (Store.parent?_push s c.current label), hchain]
  exact congrArg (Environment.mk _) (congrArg Environment.saved hold)

theorem environment_enter :
    (⟨s.size, s.size :: c.guards⟩ : Context).environment (s.push c.current label).2 =
      ⟨(s.chain c.current).push s.size, s.chain c.current :: (c.environment s).saved⟩ := by
  have hs' := Store.wellFormed_push hs hc.current label
  have hpush := environment_push hc hs label
  -- what dropping the new guard goes back to
  have hpop : (s.push c.current label).2.pop s.size = c.current := by
    rw [Store.pop, Store.parent?_push, Option.getD_some]
  have hchain : (s.push c.current label).2.chain c.current = s.chain c.current :=
    (Store.push_extends s c.current label).chain hs hs' hc.current
  simp only [environment, Environment.mk.injEq] at hpush ⊢
  rw [List.map_cons, hpop, hchain, hpush.1, hpush.2]
  exact ⟨rfl, rfl⟩

end NewFrame

variable [DecidableEq κ]

theorem perform_extends (s : Store κ α) (c : Context) (q : Command κ α) :
    s.Extends (c.perform s q).2.2 := by
  cases q with
  | push label => exact Store.push_extends s c.current label
  | enter label => exact Store.push_extends s c.current label
  | leave =>
    unfold perform
    cases c.guards <;> exact .refl s
  | provide key value =>
    exact Store.extends_of_shapes (Store.shapes_provide s c.current key value)
  | _ => exact .refl s

theorem perform_wellFormed (hs : s.WellFormed) (hc : c.current < s.size) (q : Command κ α) :
    (c.perform s q).2.2.WellFormed := by
  cases q with
  | push label => exact Store.wellFormed_push hs hc label
  | enter label => exact Store.wellFormed_push hs hc label
  | leave =>
    unfold perform
    cases c.guards <;> exact hs
  | provide key value =>
    exact Store.wellFormed_of_shapes hs (Store.shapes_provide s c.current key value)
  | _ => exact hs

theorem perform_valid (hs : s.WellFormed) (hc : c.Valid s) (q : Command κ α) :
    (c.perform s q).2.1.Valid (c.perform s q).2.2 := by
  have hkeep := hc.mono (perform_extends s c q)
  cases q with
  | push label =>
    refine ⟨?_, hkeep.guards⟩
    exact Nat.lt_of_lt_of_eq (Nat.lt_succ_self _) (Store.size_push s c.current label).symm
  | pop => exact ⟨Store.pop_lt_size hs hc.current, hc.guards⟩
  | enter label =>
    refine ⟨?_, fun f hf => ?_⟩
    · exact Nat.lt_of_lt_of_eq (Nat.lt_succ_self _) (Store.size_push s c.current label).symm
    rcases List.mem_cons.mp hf with rfl | hf
    · exact ⟨c.current, Store.parent?_push s c.current label⟩
    · exact hkeep.guards f hf
  | leave =>
    unfold perform
    cases hg : c.guards with
    | nil => exact hc
    | cons frame rest =>
      obtain ⟨p, hp⟩ := hc.guards frame (by simp [hg])
      refine ⟨?_, fun f hf => hc.guards f (by simp [hg, hf])⟩
      simpa [hp] using Store.parent?_lt_size hs hp
  | provide key value => exact hkeep
  | _ => exact hc

/-- A command on a context comes to what it comes to in its environment. -/
theorem perform_environment (hs : s.WellFormed) (hc : c.Valid s) (q : Command κ α) :
    (c.environment s).perform s.table q =
      ((c.perform s q).1, (c.perform s q).2.1.environment (c.perform s q).2.2,
        (c.perform s q).2.2.table) := by
  cases q with
  | push label =>
    simp only [Environment.perform, Store.make_push s c.current label]
    exact congrArg (fun e => (Answer.frame s.size, e, (s.push c.current label).2.table))
      (environment_push hc hs label).symm
  | pop => simp [Environment.perform, perform, environment, Store.chain_pop hs]
  | enter label =>
    simp only [Environment.perform, Store.make_push s c.current label]
    exact congrArg (fun e => (Answer.frame s.size, e, (s.push c.current label).2.table))
      (environment_enter hc hs label).symm
  | leave =>
    cases hg : c.guards with
    | nil => simp [Environment.perform, perform, environment, hg]
    | cons frame rest =>
      obtain ⟨p, hp⟩ := hc.guards frame (by simp [hg])
      simp [Environment.perform, perform, environment, hg, hp, Store.pop]
  | current => rfl
  | depth => simp [Environment.perform, perform, environment, Store.outer_length hs hc.current]
  | labels =>
    simp [Environment.perform, perform, environment, Store.toList_chain hs, Store.label_table]
  | provide key value =>
    have hshapes := Store.shapes_provide s c.current key value
    have hkeep := hc.environment_eq (Store.extends_of_shapes hshapes) hs
      (Store.wellFormed_of_shapes hs hshapes)
    simp only [Environment.perform, perform, environment, Store.provide_table] at hkeep ⊢
    rw [hkeep]
    rfl
  | resolve key => simp [Environment.perform, perform, environment, Store.find?_table hs]

end Context

namespace Scopes
variable {κ α : Type}

/-- What holds between commands: in particular the root of a runtime is a root. -/
structure Valid (s : Scopes κ α) : Prop where
  store : s.store.WellFormed
  contexts : ∀ c ∈ s.contexts, c.Valid s.store
  roots : ∀ r ∈ s.runtimes, ∀ id, r.root = some id →
    id < s.store.size ∧ s.store.parent? id = none

theorem valid_empty : (({} : Scopes κ α)).Valid where
  store := Store.wellFormed_empty
  contexts := fun _ hc => absurd hc List.not_mem_nil
  roots := fun _ hr => absurd hr List.not_mem_nil

section Start
variable {s : Scopes κ α} (hs : s.Valid)
include hs

theorem Valid.start {id : FrameId} (hid : id < s.store.size) : (s.start id).Valid := by
  refine ⟨hs.store, fun c hc => ?_, hs.roots⟩
  rcases List.mem_append.mp hc with hc | hc
  · exact hs.contexts c hc
  · obtain rfl := List.mem_singleton.mp hc
    exact ⟨hid, fun _ hf => absurd hf List.not_mem_nil⟩

theorem Valid.grow {store : Store κ α} (h : s.store.Extends store) (hstore : store.WellFormed) :
    ({ s with store := store } : Scopes κ α).Valid := by
  refine ⟨hstore, fun c hc => (hs.contexts c hc).mono h, fun r hr id hid => ?_⟩
  obtain ⟨hlt, hroot⟩ := hs.roots r hr id hid
  exact ⟨Nat.lt_of_lt_of_le hlt h.size_le, (h.parent? hlt).trans hroot⟩

theorem root_rootOf {i : RuntimeId} {r : ScopeRuntime} (hr : r ∈ s.runtimes) :
    (s.rootOf i r).1 < (s.rootOf i r).2.store.size ∧
      (s.rootOf i r).2.store.parent? (s.rootOf i r).1 = none ∧ (s.rootOf i r).2.Valid := by
  unfold rootOf
  cases hroot : r.root with
  | some id => exact ⟨(hs.roots r hr id hroot).1, (hs.roots r hr id hroot).2, hs⟩
  | none =>
    have hgrow := hs.grow (Store.root_extends s.store r.label)
      (Store.wellFormed_root hs.store r.label)
    have hlt : s.store.size < (s.store.root r.label).2.size :=
      Nat.lt_of_lt_of_eq (Nat.lt_succ_self _) (Store.size_root s.store r.label).symm
    have hparent := Store.parent?_root s.store r.label
    refine ⟨hlt, hparent, hgrow.store, hgrow.contexts, fun q hq id hid => ?_⟩
    rcases List.mem_or_eq_of_mem_set hq with hq | rfl
    · exact hgrow.roots q hq id hid
    · obtain rfl := Option.some.inj hid
      exact ⟨hlt, hparent⟩

end Start

theorem rootOf_extends (s : Scopes κ α) (i : RuntimeId) (r : ScopeRuntime) :
    s.store.Extends (s.rootOf i r).2.store := by
  unfold rootOf
  cases r.root with
  | some id => exact .refl s.store
  | none => exact Store.root_extends s.store r.label

variable [DecidableEq κ]

theorem perform_extends (s : Scopes κ α) (q : Command κ α) :
    s.store.Extends (s.perform q).2.store := by
  cases q with
  | runtime label => exact .refl s.store
  | root i =>
    cases hr : s.runtimes[i]? with
    | none => simpa [perform, hr] using .refl s.store
    | some r => simpa [perform, hr] using rootOf_extends s i r
  | context i =>
    cases hr : s.runtimes[i]? with
    | none => simpa [perform, hr] using .refl s.store
    | some r => simpa [perform, hr, start] using rootOf_extends s i r
  | detached => exact Store.root_extends s.store Store.defaultLabel
  | identify id => exact Store.extends_of_shapes (Store.shapes_identify s.store id)
  | fork i =>
    cases hc : s.contexts[i]? <;> simpa [perform, hc, start] using .refl s.store
  | on i command =>
    cases hc : s.contexts[i]? with
    | none => simpa [perform, hc] using .refl s.store
    | some c => simpa [perform, hc] using Context.perform_extends s.store c command

def environments (s : Scopes κ α) : Environments κ α :=
  ⟨s.store.table, s.runtimes, s.contexts.map fun c => c.environment s.store⟩

theorem environments_start (s : Scopes κ α) (id : FrameId) :
    (s.start id).environments = s.environments.start (s.store.chain id) := by
  simp [start, Environments.start, environments, Context.environment]

section Steps
variable {s : Scopes κ α} (hs : s.Valid)
include hs

/-- When the store grows, the contexts keep their chains. -/
theorem environments_grow {store : Store κ α} (h : s.store.Extends store)
    (hstore : store.WellFormed) :
    ({ s with store := store } : Scopes κ α).environments =
      { s.environments with table := store.table } := by
  unfold environments
  congr 1
  exact List.map_congr_left fun c hc => (hs.contexts c hc).environment_eq h hs.store hstore

theorem environments_rootOf (i : RuntimeId) (r : ScopeRuntime) :
    s.environments.rootOf i r = ((s.rootOf i r).1, (s.rootOf i r).2.environments) := by
  unfold Environments.rootOf rootOf
  cases r.root with
  | some id => rfl
  | none =>
    have hgrow := environments_grow hs (Store.root_extends s.store r.label)
      (Store.wellFormed_root hs.store r.label)
    have hkeep := congrArg Environments.environments hgrow
    simp only [environments, Store.make_root] at hkeep ⊢
    exact congrArg (fun es => (s.store.size, (⟨_, _, es⟩ : Environments κ α))) hkeep.symm

theorem perform_valid (q : Command κ α) : (s.perform q).2.Valid := by
  cases q with
  | runtime label =>
    refine ⟨hs.store, hs.contexts, fun r hr id hid => ?_⟩
    rcases List.mem_append.mp hr with hr | hr
    · exact hs.roots r hr id hid
    · obtain rfl := List.mem_singleton.mp hr
      cases hid
  | root i =>
    cases hr : s.runtimes[i]? with
    | none => simpa [perform, hr] using hs
    | some r => simpa [perform, hr] using (root_rootOf hs (List.mem_of_getElem? hr)).2.2
  | context i =>
    cases hr : s.runtimes[i]? with
    | none => simpa [perform, hr] using hs
    | some r =>
      obtain ⟨hlt, _, hvalid⟩ := root_rootOf (i := i) hs (List.mem_of_getElem? hr)
      simpa [perform, hr] using hvalid.start hlt
  | detached =>
    have hgrow := hs.grow (Store.root_extends s.store Store.defaultLabel)
      (Store.wellFormed_root hs.store Store.defaultLabel)
    exact hgrow.start (Nat.lt_of_lt_of_eq (Nat.lt_succ_self _) (Store.size_root s.store _).symm)
  | identify id =>
    have hshapes := Store.shapes_identify s.store id
    exact hs.grow (Store.extends_of_shapes hshapes) (Store.wellFormed_of_shapes hs.store hshapes)
  | fork i =>
    cases hc : s.contexts[i]? with
    | none => simpa [perform, hc] using hs
    | some c =>
      simpa [perform, hc] using hs.start (hs.contexts c (List.mem_of_getElem? hc)).current
  | on i command =>
    cases hc : s.contexts[i]? with
    | none => simpa [perform, hc] using hs
    | some c =>
      have hvalid := hs.contexts c (List.mem_of_getElem? hc)
      have hgrow := hs.grow (Context.perform_extends s.store c command)
        (Context.perform_wellFormed hs.store hvalid.current command)
      simp only [perform, hc]
      refine ⟨hgrow.store, fun d hd => ?_, hgrow.roots⟩
      rcases List.mem_or_eq_of_mem_set hd with hd | rfl
      · exact hgrow.contexts d hd
      · exact Context.perform_valid hs.store hvalid command

/-- Every command is answered as in the environments, and leaves what it leaves there. -/
theorem perform_environments (q : Command κ α) :
    s.environments.perform q = ((s.perform q).1, (s.perform q).2.environments) := by
  cases q with
  | runtime label => rfl
  | root i =>
    cases hr : s.runtimes[i]? with
    | none => simp [Environments.perform, perform, environments, hr]
    | some r =>
      have hr' : s.environments.runtimes[i]? = some r := hr
      simp [Environments.perform, perform, hr, hr', environments_rootOf hs i r]
  | context i =>
    cases hr : s.runtimes[i]? with
    | none => simp [Environments.perform, perform, environments, hr]
    | some r =>
      have hr' : s.environments.runtimes[i]? = some r := hr
      have hroot := (root_rootOf (i := i) hs (List.mem_of_getElem? hr)).2.1
      simp [Environments.perform, perform, hr, hr', environments_rootOf hs i r,
        environments_start, Store.chain_of_root hroot]
  | detached =>
    have hgrow := environments_grow hs (Store.root_extends s.store Store.defaultLabel)
      (Store.wellFormed_root hs.store Store.defaultLabel)
    have hstart := environments_start ({ s with store := (s.store.root Store.defaultLabel).2 })
      s.store.size
    rw [Store.chain_of_root (Store.parent?_root s.store Store.defaultLabel), hgrow] at hstart
    have htable : s.environments.table.make Store.defaultLabel =
      (s.store.size, (s.store.root Store.defaultLabel).2.table) := Store.make_root s.store _
    simp only [Environments.perform, htable]
    exact congrArg (Prod.mk Context.Answer.done) hstart.symm
  | identify id =>
    have hshapes := Store.shapes_identify s.store id
    have hgrow := environments_grow hs (Store.extends_of_shapes hshapes)
      (Store.wellFormed_of_shapes hs.store hshapes)
    have htable : s.environments.table.identify id =
      ((s.store.identify id).1, (s.store.identify id).2.table) := Store.identify_table s.store id
    simp only [Environments.perform, perform, hgrow, htable]
  | fork i =>
    cases hc : s.contexts[i]? with
    | none => simp [Environments.perform, perform, environments, hc]
    | some c =>
      have hc' : s.environments.environments[i]? = some (c.environment s.store) := by
        simp [environments, hc]
      simp [Environments.perform, perform, hc, hc', environments_start, Context.environment]
  | on i command =>
    cases hc : s.contexts[i]? with
    | none => simp [Environments.perform, perform, environments, hc]
    | some c =>
      have hc' : s.environments.environments[i]? = some (c.environment s.store) := by
        simp [environments, hc]
      have hvalid := hs.contexts c (List.mem_of_getElem? hc)
      have hgrow := environments_grow hs (Context.perform_extends s.store c command)
        (Context.perform_wellFormed hs.store hvalid.current command)
      have hkeep := congrArg Environments.environments hgrow
      have hstep : (c.environment s.store).perform s.environments.table command = _ :=
        Context.perform_environment hs.store hvalid command
      simp only [Environments.perform, perform, hc, hc', hstep]
      simp only [environments, List.map_set] at hkeep ⊢
      rw [hkeep]

theorem performAll_environments (commands : List (Command κ α)) :
    s.environments.performAll commands =
        ((s.performAll commands).1, (s.performAll commands).2.environments) ∧
      (s.performAll commands).2.Valid := by
  induction commands generalizing s with
  | nil => exact ⟨rfl, hs⟩
  | cons q rest ih =>
    obtain ⟨hrest, hvalid⟩ := ih (perform_valid hs q)
    have hstep := perform_environments hs q
    exact ⟨by simp only [Environments.performAll, performAll, hstep, hrest], hvalid⟩

theorem lt_of_inUse {id : FrameId} (h : s.environments.InUse id) :
    id < s.environments.table.scopes.length := by
  have hsize : s.environments.table.scopes.length = s.store.size := List.length_map _
  have hchain (p : FrameId) (hp : p < s.store.size) (hid : id ∈ (s.store.chain p).toList) :
      id < s.store.size := by
    rw [Store.toList_chain hs.store] at hid
    exact Store.lt_size_of_mem_ancestors hs.store hp hid
  rw [hsize]
  rcases h with ⟨e, he, c, hc, hid⟩ | ⟨r, hr, hroot⟩
  · obtain ⟨context, hcontext, rfl⟩ := List.mem_map.mp he
    have hvalid := hs.contexts context hcontext
    rcases List.mem_cons.mp hc with rfl | hsaved
    · exact hchain _ hvalid.current hid
    · obtain ⟨f, hf, rfl⟩ := List.mem_map.mp hsaved
      obtain ⟨p, hp⟩ := hvalid.guards f hf
      exact hchain _ (Store.pop_lt_size hs.store (Store.lt_size_of_parent? hp)) hid
  · exact (hs.roots r hr id hroot).1

end Steps

/-- Whatever is done with any number of contexts, starting from nothing: all answers are those of the environments, and
the frames stand for what the environments have come to. -/
theorem scopes_are_environments (commands : List (Command κ α)) :
    let s := (performAll {} commands).2
    Environments.performAll {} commands = ((performAll {} commands).1, s.environments) ∧
    (∀ id < s.store.size, s.store.depth id + 1 = (s.store.chain id).toList.length) ∧
    (∀ id, s.environments.InUse id → id < s.environments.table.scopes.length) ∧
    (∀ i e q, s.environments.environments[i]? = some e →
      (∃ command, q = .on i command) ∨ (s.perform q).2.environments.environments[i]? = some e) := by
  intro s
  obtain ⟨hanswers, hs⟩ := performAll_environments (κ := κ) (α := α) valid_empty commands
  refine ⟨hanswers, fun id hid => ?_, fun id hid => lt_of_inUse hs hid, fun i e q he => ?_⟩
  · rw [Store.toList_chain hs.store, Store.depth_add_one hs.store hid]
  · have hstep := congrArg (fun r => r.2.environments[i]?) (perform_environments hs q)
    rw [← hstep]
    exact Environments.getElem?_perform q he

end Scopes

end AmbientScope
