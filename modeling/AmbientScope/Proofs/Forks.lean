import AmbientScope.Proofs.LexicalScopes
import Mathlib.Data.List.Forall2

/-!
# Contexts that do not interfere

What a context is told does not depend on what other contexts do, as long as these provide values only in frames that
were made by them or for them. They may still pop down to the frames that they share with it and push others there.
The run is compared with the one in which all other commands are left out: the frames that are in both
correspond, the others are never on the chain of the context.
-/

set_option autoImplicit false

namespace AmbientScope

/-- The answer without the identity of a frame, which depends on how many others there are. -/
def Context.Answer.visible {α : Type} : Context.Answer α → Context.Answer α
  | .frame _ => .done
  | answer => answer

namespace Scopes
variable {κ α : Type}

def Command.isOn (a : ContextId) : Command κ α → Bool
  | .on c _ => c = a
  | _ => false

/-- A context other than `a` provides only while it points at one of the frames `own`. -/
def permits (a : ContextId) (own : List FrameId) (s : Scopes κ α) : Command κ α → Bool
  | .on c (.provide _ _) => c = a || (s.contexts[c]?).all fun context => context.current ∈ own
  | _ => true

variable [DecidableEq κ]

/-- The frames that a command makes which is not one on `a`. -/
def madeBeside (a : ContextId) (s : Scopes κ α) (q : Command κ α) : List FrameId :=
  if q.isOn a then []
  else List.range' s.store.size ((s.perform q).2.store.size - s.store.size)

/-- Contexts other than `a` provide only in the frames `own` and in those made by commands that are not on `a`. -/
def confined (a : ContextId) : List FrameId → Scopes κ α → List (Command κ α) → Bool
  | _, _, [] => true
  | own, s, q :: rest =>
    s.permits a own q && confined a (own ++ s.madeBeside a q) (s.perform q).2 rest

def answersOn (s : Scopes κ α) (a : ContextId) (commands : List (Command κ α)) :
    List (Context.Answer α) :=
  ((commands.zip (s.performAll commands).1).filter fun p => p.1.isOn a).map fun p => p.2.visible

end Scopes

/-- The second chain consists of the identities that correspond to those of the first one. -/
def Chain.Renames (ρ : FrameId → Option FrameId) (c c' : Chain) : Prop :=
  List.Forall₂ (fun id p => ρ id = some p) c.toList c'.toList

namespace Chain
variable {ρ ρ' : FrameId → Option FrameId} {c c' : Chain}

theorem Renames.mono (h : c.Renames ρ c') (hρ : ∀ id p, ρ id = some p → ρ' id = some p) :
    c.Renames ρ' c' :=
  List.Forall₂.imp (fun {id p} hid => hρ id p hid) h

theorem Renames.innermost (h : c.Renames ρ c') : ρ c.innermost = some c'.innermost :=
  (List.forall₂_cons.mp h).1

theorem Renames.push {id p : FrameId} (h : c.Renames ρ c') (hid : ρ id = some p) :
    (c.push id).Renames ρ (c'.push p) :=
  .cons hid h

theorem Renames.pop (h : c.Renames ρ c') : c.pop.Renames ρ c'.pop := by
  obtain ⟨id, outer⟩ := c
  obtain ⟨p, outer'⟩ := c'
  obtain ⟨hid, houter⟩ := List.forall₂_cons.mp h
  cases houter with
  | nil => exact .cons hid .nil
  | cons hnext hrest => exact .cons hnext hrest

theorem Renames.outer_length (h : c.Renames ρ c') : c.outer.length = c'.outer.length :=
  (List.forall₂_cons.mp h).2.length_eq

end Chain

/-- Corresponding identities have the same label and bind the same values, and no two correspond to one. -/
structure ScopeTable.Mirrors {κ α : Type} (ρ : FrameId → Option FrameId)
    (t t' : ScopeTable κ α) : Prop where
  scope : ∀ id p, ρ id = some p → ∃ x x', t.scopes[id]? = some x ∧ t'.scopes[p]? = some x' ∧
    x'.label = x.label ∧ x'.values = x.values
  injective : ∀ id id' p, ρ id = some p → ρ id' = some p → id = id'

namespace ScopeTable.Mirrors
variable {κ α : Type} {ρ : FrameId → Option FrameId} {t t' : ScopeTable κ α}
variable {c c' : Chain} {id p : FrameId} (h : t.Mirrors ρ t')
include h

theorem lt (hid : ρ id = some p) : id < t.scopes.length ∧ p < t'.scopes.length := by
  obtain ⟨x, x', hx, hx', _⟩ := h.scope id p hid
  exact ⟨(List.getElem?_eq_some_iff.mp hx).1, (List.getElem?_eq_some_iff.mp hx').1⟩

theorem label (hid : ρ id = some p) : t'.label p = t.label id := by
  obtain ⟨x, x', hx, hx', hlabel, _⟩ := h.scope id p hid
  simp [ScopeTable.label, hx, hx', hlabel]

theorem value? (hid : ρ id = some p) (key : κ) : t'.value? p key = t.value? id key := by
  obtain ⟨x, x', hx, hx', _, hvalues⟩ := h.scope id p hid
  simp [ScopeTable.value?, hx, hx', hvalues]

theorem labels (hc : c.Renames ρ c') : c'.toList.map t'.label = c.toList.map t.label := by
  unfold Chain.Renames at hc
  generalize c.toList = ids, c'.toList = ids' at hc
  induction hc with
  | nil => rfl
  | cons hid _ ih => rw [List.map_cons, List.map_cons, h.label hid, ih]

theorem find? (hc : c.Renames ρ c') (key : κ) : t'.find? c' key = t.find? c key := by
  unfold Chain.Renames at hc
  unfold ScopeTable.find?
  generalize c.toList = ids, c'.toList = ids' at hc
  induction hc with
  | nil => rfl
  | cons hid _ ih => rw [List.findSome?_cons, List.findSome?_cons, h.value? hid key, ih]

theorem make_left (label : String) : (t.make label).2.Mirrors ρ t' := by
  refine ⟨fun id p hid => ?_, h.injective⟩
  obtain ⟨x, x', hx, hx', hsame⟩ := h.scope id p hid
  exact ⟨x, x', (List.getElem?_append_left (h.lt hid).1).trans hx, hx', hsame⟩

theorem make (label : String) :
    (t.make label).2.Mirrors (Function.update ρ t.scopes.length (some t'.scopes.length))
      (t'.make label).2 := by
  constructor
  · intro id p hid
    rcases eq_or_ne id t.scopes.length with rfl | hne
    · rw [Function.update_self] at hid
      obtain rfl := Option.some.inj hid
      exact ⟨{ label := label }, { label := label }, by simp [ScopeTable.make],
        by simp [ScopeTable.make], rfl, rfl⟩
    · rw [Function.update_of_ne hne] at hid
      obtain ⟨x, x', hx, hx', hsame⟩ := h.scope id p hid
      exact ⟨x, x', (List.getElem?_append_left (h.lt hid).1).trans hx,
        (List.getElem?_append_left (h.lt hid).2).trans hx', hsame⟩
  · intro id id' p hid hid'
    -- The new identity of the second table corresponds to the new one only.
    have hold (q : FrameId) (hq : q ≠ t.scopes.length)
        (hq' : Function.update ρ t.scopes.length (some t'.scopes.length) q = some p) :
        ρ q = some p ∧ p ≠ t'.scopes.length := by
      rw [Function.update_of_ne hq] at hq'
      exact ⟨hq', Nat.ne_of_lt (h.lt hq').2⟩
    rcases eq_or_ne id t.scopes.length with rfl | hne
    · rw [Function.update_self] at hid
      obtain rfl := Option.some.inj hid
      by_contra hne'
      exact (hold id' (Ne.symm hne') hid').2 rfl
    · obtain ⟨hp, hfresh⟩ := hold id hne hid
      rcases eq_or_ne id' t.scopes.length with rfl | hne'
      · rw [Function.update_self] at hid'
        exact absurd (Option.some.inj hid').symm hfresh
      · exact h.injective id id' p hp (hold id' hne' hid').1

/-- Another scope in place of one that has the same label and values, or that corresponds to none. -/
theorem set_left {x y : LocalScope κ α} (hx : t.scopes[id]? = some x) (n : Nat)
    (hy : ρ id ≠ none → y.label = x.label ∧ y.values = x.values) :
    (⟨t.scopes.set id y, n⟩ : ScopeTable κ α).Mirrors ρ t' := by
  refine ⟨fun q p hq => ?_, h.injective⟩
  obtain ⟨z, z', hz, hz', hlabel, hvalues⟩ := h.scope q p hq
  rcases eq_or_ne id q with rfl | hne
  · obtain rfl := Option.some.inj (hx.symm.trans hz)
    obtain ⟨hylabel, hyvalues⟩ := hy (by simp [hq])
    have hlt := (List.getElem?_eq_some_iff.mp hx).1
    exact ⟨y, z', by simp [hlt], hz', hlabel.trans hylabel.symm, hvalues.trans hyvalues.symm⟩
  · exact ⟨z, z', (List.getElem?_set_ne hne).trans hz, hz', hlabel, hvalues⟩

theorem set (hid : ρ id = some p) {y y' : LocalScope κ α} (hlabel : y'.label = y.label)
    (hvalues : y'.values = y.values) (m n : Nat) :
    (⟨t.scopes.set id y, m⟩ : ScopeTable κ α).Mirrors ρ ⟨t'.scopes.set p y', n⟩ := by
  refine ⟨fun q r hq => ?_, h.injective⟩
  obtain ⟨z, z', hz, hz', hsame⟩ := h.scope q r hq
  rcases eq_or_ne id q with rfl | hne
  · obtain rfl : p = r := Option.some.inj (hid.symm.trans hq)
    have hlt := h.lt hid
    exact ⟨y, y', by simp [hlt.1], by simp [hlt.2], hlabel, hvalues⟩
  · have hne' : p ≠ r := by
      rintro rfl
      exact hne (h.injective id q p hid hq)
    exact ⟨z, z', (List.getElem?_set_ne hne).trans hz, (List.getElem?_set_ne hne').trans hz', hsame⟩

theorem identify_left (id : FrameId) : (t.identify id).2.Mirrors ρ t' := by
  unfold ScopeTable.identify
  cases hx : t.scopes[id]? with
  | none => exact h
  | some x =>
    cases hn : x.number with
    | some n => simpa [hn] using h
    | none =>
      simp only [hn]
      exact h.set_left hx (t.numbered + 1) fun _ => ⟨rfl, rfl⟩

variable [DecidableEq κ]

theorem provide_left (hid : ρ id = none) (key : κ) (value : α) :
    (t.provide id key value).2.Mirrors ρ t' := by
  unfold ScopeTable.provide
  cases hx : t.scopes[id]? with
  | none => exact h
  | some x =>
    cases hv : x.values key with
    | some old => simpa [hv] using h
    | none => simpa [hv] using h.set_left hx t.numbered fun hne => absurd hid hne

theorem provide (hid : ρ id = some p) (key : κ) (value : α) :
    (t'.provide p key value).1 = (t.provide id key value).1 ∧
      (t.provide id key value).2.Mirrors ρ (t'.provide p key value).2 := by
  obtain ⟨x, x', hx, hx', hlabel, hvalues⟩ := h.scope id p hid
  cases hv : x.values key with
  | some old => simpa [ScopeTable.provide, hx, hx', hvalues, hv] using h
  | none =>
    simp only [ScopeTable.provide, hx, hx', hvalues, hv, true_and]
    refine h.set hid ?_ ?_ t.numbered t'.numbered
    · exact hlabel
    · rfl

end ScopeTable.Mirrors

structure Environment.Mirrors (ρ : FrameId → Option FrameId) (e e' : Environment) : Prop where
  chain : e.chain.Renames ρ e'.chain
  saved : List.Forall₂ (Chain.Renames ρ) e.saved e'.saved

namespace Environment
variable {κ α : Type} {ρ ρ' : FrameId → Option FrameId} {e e' : Environment}
variable {t t' : ScopeTable κ α}

theorem Mirrors.mono (he : e.Mirrors ρ e') (hρ : ∀ id p, ρ id = some p → ρ' id = some p) :
    e.Mirrors ρ' e' :=
  ⟨he.chain.mono hρ, he.saved.imp fun _ _ hc => hc.mono hρ⟩

theorem Mirrors.pop (he : e.Mirrors ρ e') :
    Mirrors ρ ⟨e.chain.pop, e.saved⟩ ⟨e'.chain.pop, e'.saved⟩ :=
  ⟨he.chain.pop, he.saved⟩

variable [DecidableEq κ]

/-- The same command on corresponding environments: the answers agree, and what is left corresponds. -/
theorem perform_mirrors (h : t.Mirrors ρ t') (he : e.Mirrors ρ e') (q : Context.Command κ α) :
    (e.perform t q).1.visible = (e'.perform t' q).1.visible ∧
    ∃ ρ', (∀ id < t.scopes.length, ρ' id = ρ id) ∧
      (e.perform t q).2.1.Mirrors ρ' (e'.perform t' q).2.1 ∧
      (e.perform t q).2.2.Mirrors ρ' (e'.perform t' q).2.2 := by
  have hold (id : FrameId) (hid : id < t.scopes.length) :
      Function.update ρ t.scopes.length (some t'.scopes.length) id = ρ id :=
    Function.update_of_ne (Nat.ne_of_lt hid) _ _
  have hnew := he.mono fun id p hid => (hold id (h.lt hid).1).trans hid
  have hself : Function.update ρ t.scopes.length (some t'.scopes.length) t.scopes.length =
    some t'.scopes.length := Function.update_self _ _ _
  -- Only a push makes a pair of new identities that correspond; otherwise `ρ` stays.
  cases q with
  | push label =>
    exact ⟨rfl, _, hold, ⟨hnew.chain.push hself, hnew.saved⟩, h.make label⟩
  | pop => exact ⟨rfl, ρ, fun _ _ => rfl, he.pop, h⟩
  | enter label =>
    exact ⟨rfl, _, hold, ⟨hnew.chain.push hself, .cons hnew.chain hnew.saved⟩, h.make label⟩
  | leave =>
    obtain ⟨chain, saved⟩ := e
    obtain ⟨chain', saved'⟩ := e'
    cases he.saved with
    | nil => exact ⟨rfl, ρ, fun _ _ => rfl, he, h⟩
    | cons hchain hrest => exact ⟨rfl, ρ, fun _ _ => rfl, ⟨hchain, hrest⟩, h⟩
  | current => exact ⟨rfl, ρ, fun _ _ => rfl, he, h⟩
  | depth =>
    refine ⟨?_, ρ, fun _ _ => rfl, he, h⟩
    simp only [perform, he.chain.outer_length]
  | labels =>
    refine ⟨?_, ρ, fun _ _ => rfl, he, h⟩
    simp only [perform, h.labels he.chain]
  | provide key value =>
    obtain ⟨hflag, htable⟩ := h.provide he.chain.innermost key value
    refine ⟨?_, ρ, fun _ _ => rfl, he, htable⟩
    simp only [perform, hflag]
  | resolve key =>
    refine ⟨?_, ρ, fun _ _ => rfl, he, h⟩
    simp only [perform, h.find? he.chain]

theorem perform_mirrors_left (h : t.Mirrors ρ t') (e : Environment) (q : Context.Command κ α)
    (hq : ∀ key value, q = .provide key value → ρ e.chain.innermost = none) :
    (e.perform t q).2.2.Mirrors ρ t' := by
  cases q with
  | push label => exact h.make_left label
  | enter label => exact h.make_left label
  | leave =>
    unfold perform
    cases e.saved <;> exact h
  | provide key value => exact h.provide_left (hq key value rfl) key value
  | _ => exact h

end Environment

namespace Environments
variable {κ α : Type} [DecidableEq κ] {ρ : FrameId → Option FrameId} {t' : ScopeTable κ α}

theorem perform_mirrors_left (s : Environments κ α) (h : s.table.Mirrors ρ t')
    (q : Scopes.Command κ α)
    (hq : ∀ c key value e, q = .on c (.provide key value) → s.environments[c]? = some e →
      ρ e.chain.innermost = none) :
    (s.perform q).2.table.Mirrors ρ t' := by
  have hroot (i : RuntimeId) (r : ScopeRuntime) : (s.rootOf i r).2.table.Mirrors ρ t' := by
    unfold rootOf
    cases r.root with
    | some id => exact h
    | none => exact h.make_left r.label
  cases q with
  | runtime label => exact h
  | root i =>
    cases hr : s.runtimes[i]? with
    | none => simpa [perform, hr] using h
    | some r => simpa [perform, hr] using hroot i r
  | context i =>
    cases hr : s.runtimes[i]? with
    | none => simpa [perform, hr] using h
    | some r => simpa [perform, hr, start] using hroot i r
  | detached => exact h.make_left Store.defaultLabel
  | identify id => exact h.identify_left id
  | fork i =>
    cases hc : s.environments[i]? <;> simpa [perform, hc, start] using h
  | on i command =>
    cases hc : s.environments[i]? with
    | none => simpa [perform, hc] using h
    | some e =>
      have hcommand := Environment.perform_mirrors_left h e command fun key value hprovide =>
        hq i key value e (by rw [hprovide]) hc
      simpa [perform, hc] using hcommand

/-- The context `a` corresponds to the one in the other run, and no frame of `own` corresponds to any there. -/
structure Beside (a : ContextId) (own : List FrameId) (ρ : FrameId → Option FrameId)
    (s s' : Environments κ α) : Prop where
  table : s.table.Mirrors ρ s'.table
  context : ∃ e e', s.environments[a]? = some e ∧ s'.environments[a]? = some e' ∧ e.Mirrors ρ e'
  own : ∀ id ∈ own, id < s.table.scopes.length ∧ ρ id = none

omit [DecidableEq κ] in
theorem beside_self {s : Environments κ α} {a : ContextId} (ha : a < s.environments.length)
    (hs : ∀ id, s.InUse id → id < s.table.scopes.length) :
    Beside a [] (fun id => if id < s.table.scopes.length then some id else none) s s := by
  have hself (id p : FrameId)
      (hid : (if id < s.table.scopes.length then some id else none) = some p) :
      id < s.table.scopes.length ∧ id = p := by simpa using hid
  refine ⟨⟨fun id p hid => ?_, fun id id' p hid hid' => ?_⟩, ?_, fun id hid => by cases hid⟩
  · obtain ⟨hlt, rfl⟩ := hself id p hid
    exact ⟨_, _, List.getElem?_eq_getElem hlt, List.getElem?_eq_getElem hlt, rfl, rfl⟩
  · exact (hself id p hid).2.trans (hself id' p hid').2.symm
  · have hmem : s.environments[a] ∈ s.environments := List.getElem_mem ha
    have hchain (c : Chain) (hc : c ∈ s.environments[a].chain :: s.environments[a].saved) :
        c.Renames (fun id => if id < s.table.scopes.length then some id else none) c := by
      refine List.forall₂_same.mpr fun id hid => ?_
      simp [hs id (.inl ⟨_, hmem, c, hc, hid⟩)]
    refine ⟨_, _, List.getElem?_eq_getElem ha, List.getElem?_eq_getElem ha, ?_, ?_⟩
    · exact hchain _ (List.mem_cons_self ..)
    · exact List.forall₂_same.mpr fun c hc => hchain c (List.mem_cons_of_mem _ hc)

end Environments

namespace Scopes
variable {κ α : Type} [DecidableEq κ] {s s' : Scopes κ α} {a : ContextId}
variable {own : List FrameId} {ρ : FrameId → Option FrameId}

omit [DecidableEq κ] in
theorem isOn_iff {q : Command κ α} : q.isOn a = true ↔ ∃ command, q = .on a command := by
  cases q <;> simp [Command.isOn]

theorem length_table (s : Scopes κ α) : s.environments.table.scopes.length = s.store.size :=
  List.length_map _

theorem lt_of_mem_madeBeside {q : Command κ α} {id : FrameId} (hid : id ∈ s.madeBeside a q) :
    s.store.size ≤ id ∧ id < (s.perform q).2.store.size := by
  unfold madeBeside at hid
  split at hid
  · cases hid
  · have hsize := (perform_extends s q).size_le
    rw [List.mem_range'_1, Nat.add_sub_cancel' hsize] at hid
    exact hid

section Beside
variable (hs : s.Valid) (h : Environments.Beside a own ρ s.environments s'.environments)
include hs h

theorem beside_on (hs' : s'.Valid) (command : Context.Command κ α) :
    (s.perform (.on a command)).1.visible = (s'.perform (.on a command)).1.visible ∧
    ∃ ρ', Environments.Beside a own ρ' (s.perform (.on a command)).2.environments
      (s'.perform (.on a command)).2.environments := by
  obtain ⟨e, e', he, he', hmirror⟩ := h.context
  obtain ⟨hvisible, ρ', hold, hcontext, htable⟩ :=
    Environment.perform_mirrors h.table hmirror command
  have hsize := (perform_extends s (.on a command)).size_le
  rw [← length_table, ← length_table] at hsize
  have hlt := (List.getElem?_eq_some_iff.mp he).1
  have hlt' := (List.getElem?_eq_some_iff.mp he').1
  have hstep := perform_environments hs (.on a command)
  have hstep' := perform_environments hs' (.on a command)
  simp only [Environments.perform, he, he', Prod.mk.injEq] at hstep hstep'
  rw [← hstep.1, ← hstep'.1]
  refine ⟨hvisible, ρ', ?_⟩
  rw [← hstep.2] at hsize ⊢
  rw [← hstep'.2]
  refine ⟨htable, ⟨_, _, by simp [hlt], by simp [hlt'], hcontext⟩, fun id hid => ?_⟩
  obtain ⟨hid, hnone⟩ := h.own id hid
  exact ⟨Nat.lt_of_lt_of_le hid hsize, (hold id hid).trans hnone⟩

theorem beside_other {q : Command κ α} (hq : q.isOn a = false) (hpermits : s.permits a own q) :
    Environments.Beside a (own ++ s.madeBeside a q) ρ (s.perform q).2.environments
      s'.environments := by
  have hprovide (c : ContextId) (key : κ) (value : α) (e : Environment)
      (hcommand : q = .on c (.provide key value)) (he : s.environments.environments[c]? = some e) :
      ρ e.chain.innermost = none := by
    subst hcommand
    obtain ⟨context, hcontext, rfl⟩ : ∃ context, s.contexts[c]? = some context ∧
        context.environment s.store = e := by simpa [environments] using he
    have hown : c = a ∨ context.current ∈ own := by simpa [permits, hcontext] using hpermits
    rcases hown with rfl | hown
    · simp [Command.isOn] at hq
    · exact (h.own _ hown).2
  have htable := Environments.perform_mirrors_left s.environments h.table q hprovide
  rw [perform_environments hs q] at htable
  obtain ⟨e, e', he, he', hmirror⟩ := h.context
  have hkeep : (s.perform q).2.environments.environments[a]? = some e := by
    rcases Environments.getElem?_perform q he with ⟨command, rfl⟩ | hkeep
    · simp [Command.isOn] at hq
    · rwa [perform_environments hs q] at hkeep
  refine ⟨htable, ⟨e, e', hkeep, he', hmirror⟩, fun id hid => ?_⟩
  rw [length_table]
  rcases List.mem_append.mp hid with hid | hid
  · have hlt := (h.own id hid).1
    rw [length_table] at hlt
    exact ⟨Nat.lt_of_lt_of_le hlt (perform_extends s q).size_le, (h.own id hid).2⟩
  · -- what is new has no counterpart: all that have one were there before
    obtain ⟨hnew, hlt⟩ := lt_of_mem_madeBeside hid
    refine ⟨hlt, Option.eq_none_iff_forall_not_mem.mpr fun p hp => ?_⟩
    have hold := (h.table.lt hp).1
    rw [length_table] at hold
    exact Nat.not_lt_of_le hnew hold

end Beside

theorem answersOn_cons (s : Scopes κ α) (a : ContextId) (q : Command κ α)
    (rest : List (Command κ α)) :
    s.answersOn a (q :: rest) =
      (if q.isOn a then [(s.perform q).1.visible] else []) ++ (s.perform q).2.answersOn a rest := by
  cases hq : q.isOn a <;> simp [answersOn, performAll, hq]

theorem answersOn_filter (hs : s.Valid) (hs' : s'.Valid)
    (h : Environments.Beside a own ρ s.environments s'.environments)
    (commands : List (Command κ α)) (hconfined : confined a own s commands) :
    s.answersOn a commands = s'.answersOn a (commands.filter fun q => q.isOn a) := by
  induction commands generalizing s s' own ρ with
  | nil => rfl
  | cons q rest ih =>
    obtain ⟨hpermits, hrest⟩ := Bool.and_eq_true_iff.mp hconfined
    rw [answersOn_cons]
    cases hq : q.isOn a with
    | true =>
      obtain ⟨command, rfl⟩ := isOn_iff.mp hq
      obtain ⟨hvisible, ρ', hnext⟩ := beside_on hs h hs' command
      rw [madeBeside, if_pos hq, List.append_nil] at hrest
      rw [List.filter_cons_of_pos hq, answersOn_cons, hq, hvisible,
        ih (perform_valid hs _) (perform_valid hs' _) hnext hrest]
    | false =>
      have hnext := beside_other hs h hq hpermits
      rw [List.filter_cons_of_neg (by simp [hq]), ih (perform_valid hs q) hs' hnext hrest]
      rfl

/-- What a context is told in an interleaving does not change when all commands that are not on it are left out. The
others may be forks of it, forks of these, or any contexts, as long as they provide only in frames that have been made
since and not by the context itself: those that a fork pushes, or that one pushed from which it was forked. -/
theorem others_do_not_interfere (history commands : List (Command κ α)) (a : ContextId)
    (ha : a < (performAll {} history).2.contexts.length)
    (hconfined : confined a [] (performAll {} history).2 commands) :
    (performAll {} history).2.answersOn a commands =
      (performAll {} history).2.answersOn a (commands.filter fun q => q.isOn a) := by
  have hs := (performAll_environments (κ := κ) (α := α) valid_empty history).2
  have hbeside := Environments.beside_self (s := (performAll {} history).2.environments) (a := a)
    (by simpa [environments] using ha) fun id hid => lt_of_inUse hs hid
  exact answersOn_filter hs hs hbeside commands hconfined

/-- Two forks, one made from the other, on and below the frame that they share with the context. -/
theorem forks_of_request_do_not_interfere :
    let s := (performAll {} [.detached, .on 0 (.push "Request"), .on 0 (.provide 1 10)]).2
    let commands : List (Command Nat Nat) := [.fork 0, .on 1 (.enter "Task"), .fork 1,
      .on 2 (.provide 1 20), .on 0 (.resolve 1), .on 1 .leave, .on 1 .pop,
      .on 1 (.push "Request"), .on 1 (.provide 2 30), .on 0 (.provide 2 40), .on 0 .labels]
    0 < s.contexts.length ∧ confined 0 [] s commands ∧
      s.answersOn 0 commands = s.answersOn 0 (commands.filter fun q => q.isOn 0) := by
  exact ⟨by decide, by decide, others_do_not_interfere _ _ 0 (by decide) (by decide)⟩

end Scopes

end AmbientScope
