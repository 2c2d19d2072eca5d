import AmbientScope.Proofs.LexicalScopes

/-!
# Restored scopes

A guard does not pop: it points its context at the frame that encloses its own, wherever the context is by then. The
frame of a guard keeps its parent whatever is done to the store, so code that enters and leaves its scopes in pairs
ends where it began, however it pushes and pops in between; and so does code whose pushes and pops are paired. What
such code may change for the context is what it binds in frames that enclose it from the outset.
-/

set_option autoImplicit false

namespace AmbientScope

namespace Context.Command
variable {κ α : Type}

/-- Whether the command makes or drops a guard. -/
def guards : Command κ α → Bool
  | .enter _ => true
  | .leave => true
  | _ => false

/-- Whether the command may make the context point elsewhere. -/
def moves : Command κ α → Bool
  | .push _ => true
  | .pop => true
  | q => q.guards

end Context.Command

namespace Scopes
variable {κ α : Type}

/-- Whether it is a command of such a kind on the given context. -/
def Command.isOnWith (i : ContextId) (kind : Context.Command κ α → Bool) : Command κ α → Bool
  | .on j command => j = i && kind command
  | _ => false

/-- Scopes of one context are entered and left in pairs; it may be pushed and popped at will, and anything may be done
with other contexts. -/
inductive Guarded (i : ContextId) : List (Command κ α) → Prop where
  | nil : Guarded i []
  | step {q : Command κ α} {rest : List (Command κ α)} :
      q.isOnWith i Context.Command.guards = false → Guarded i rest → Guarded i (q :: rest)
  | entered {label : String} {body rest : List (Command κ α)} : Guarded i body → Guarded i rest →
      Guarded i (.on i (.enter label) :: body ++ .on i .leave :: rest)

/-- Pushes and pops of one context come in pairs, or they stand in a scope that is entered and left. -/
inductive Balanced (i : ContextId) : List (Command κ α) → Prop where
  | nil : Balanced i []
  | step {q : Command κ α} {rest : List (Command κ α)} :
      q.isOnWith i Context.Command.moves = false → Balanced i rest → Balanced i (q :: rest)
  | pushed {label : String} {inner rest : List (Command κ α)} : Balanced i inner →
      Balanced i rest → Balanced i (.on i (.push label) :: inner ++ .on i .pop :: rest)
  | entered {label : String} {body rest : List (Command κ α)} : Guarded i body → Balanced i rest →
      Balanced i (.on i (.enter label) :: body ++ .on i .leave :: rest)

variable [DecidableEq κ]

/-- The binding that a command makes: where its context points at that moment, and under which key. -/
def binding? (s : Scopes κ α) : Command κ α → Option (FrameId × κ)
  | .on i (.provide key value) => (s.contexts[i]?).bind fun c =>
    if (s.store.provide c.current key value).1 then some (c.current, key) else none
  | _ => none

/-- The bindings that commands make. -/
def bindings (s : Scopes κ α) : List (Command κ α) → List (FrameId × κ)
  | [] => []
  | q :: rest => (s.binding? q).toList ++ bindings (s.perform q).2 rest

/-- What commands leave as it was for a context. -/
structure Restores (s : Scopes κ α) (i : ContextId) (commands : List (Command κ α)) : Prop where
  context : (s.performAll commands).2.contexts[i]? = s.contexts[i]?
  /-- Under a key that has not been bound in the frame of the context or in one that encloses it, the same is found. -/
  resolves : ∀ c key, s.contexts[i]? = some c →
    (∀ id ∈ s.store.ancestors c.current, (id, key) ∉ s.bindings commands) →
    ((s.performAll commands).2.perform (.on i (.resolve key))).1 =
      (s.perform (.on i (.resolve key))).1
  /-- At no time is the value of a binding replaced, in any frame. -/
  kept : ∀ before between rest, commands = before ++ between ++ rest → ∀ id key value,
    (s.performAll before).2.store.local? id key = some value →
    (s.performAll (before ++ between)).2.store.local? id key = some value

end Scopes

namespace Store
variable {κ α : Type} [DecidableEq κ]

/-- A new frame binds nothing. -/
theorem local?_add (s : Store κ α) {f : Frame κ α} (hf : f.bindings = FirstWrite.empty)
    (id : FrameId) (key : κ) : (s.add f).2.local? id key = s.local? id key := by
  rcases Nat.lt_trichotomy id s.size with hlt | rfl | hgt
  · rw [local?, frame?_add_of_lt f hlt, local?]
  · have hnone : s.frame? s.size = none := List.getElem?_eq_none (Nat.le_refl s.size)
    rw [local?, frame?_add_self, local?, hnone]
    simp [hf]
  · have hnone : s.frame? id = none := List.getElem?_eq_none (Nat.le_of_lt hgt)
    have hnone' : (s.add f).2.frame? id = none := by
      apply List.getElem?_eq_none
      have hsize := size_add s f
      unfold size at hsize hgt
      omega
    rw [local?, hnone', local?, hnone]

theorem local?_set {s : Store κ α} {id : FrameId} {f f' : Frame κ α} (hf : s.frame? id = some f)
    (n : Nat) (q : FrameId) (key : κ) :
    local? { frames := s.frames.set id f', numbered := n } q key =
      if q = id then f'.bindings.get? key else s.local? q key := by
  have hlt := lt_size hf
  by_cases hq : q = id
  · subst hq
    simp [local?, frame?, List.getElem?_set_self hlt]
  · simp [local?, frame?, List.getElem?_set_ne (Ne.symm hq), hq]

theorem local?_identify (s : Store κ α) (id q : FrameId) (key : κ) :
    (s.identify id).2.local? q key = s.local? q key := by
  unfold identify
  split
  · rfl
  · rename_i f hf
    split
    · rfl
    · rw [local?_set hf]
      split
      · rename_i hq
        simp [local?, hq, hf]
      · rfl

theorem local?_of_provide {s : Store κ α} {id : FrameId} {key : κ} {value : α}
    (h : (s.provide id key value).1 = true) : s.local? id key = none := by
  unfold provide at h
  unfold local?
  cases hf : s.frame? id with
  | none => rfl
  | some f =>
    cases hbound : f.bindings.contains key with
    | true => simp [hf, hbound] at h
    | false => simpa [FirstWrite.contains] using hbound

theorem local?_provide (s : Store κ α) (id q : FrameId) (key k : κ) (value : α) :
    (s.provide id key value).2.local? q k =
      if (s.provide id key value).1 = true ∧ q = id ∧ k = key then some value
      else s.local? q k := by
  unfold provide
  split
  · simp
  · rename_i f hf
    split
    · simp
    · rename_i hbound
      have hfree : f.bindings.get? key = none := by simpa [FirstWrite.contains] using hbound
      rw [local?_set hf]
      by_cases hq : q = id
      · subst hq
        simp [FirstWrite.get?_insert, hfree, local?, hf]
      · simp [hq]

theorem resolve?_congr {s s' : Store κ α} {id : FrameId} {key : κ}
    (hchain : s'.ancestors id = s.ancestors id)
    (h : ∀ q ∈ s.ancestors id, s'.local? q key = s.local? q key) :
    s'.resolve? id key = s.resolve? id key := by
  rw [resolve?, resolve?, hchain]
  generalize s.ancestors id = ids at h
  induction ids with
  | nil => rfl
  | cons q rest ih =>
    rw [List.findSome?_cons, List.findSome?_cons, h q (.head _), ih fun p hp => h p (.tail _ hp)]

end Store

namespace Scopes
variable {κ α : Type}

theorem contexts_rootOf (s : Scopes κ α) (n : RuntimeId) (r : ScopeRuntime) :
    (s.rootOf n r).2.contexts = s.contexts := by
  unfold rootOf
  cases r.root <;> rfl

section Contexts
variable [DecidableEq κ] {s : Scopes κ α} {i : ContextId} {c : Context}

theorem perform_on (hc : s.contexts[i]? = some c) (command : Context.Command κ α) :
    (s.perform (.on i command)).2.contexts[i]? = some (c.perform s.store command).2.1 ∧
      (s.perform (.on i command)).2.store = (c.perform s.store command).2.2 := by
  have hlt := (List.getElem?_eq_some_iff.mp hc).1
  simp only [perform, hc]
  exact ⟨List.getElem?_set_self hlt, trivial⟩

/-- A context stays as it is until there is a command on it. -/
theorem contexts_perform (hc : s.contexts[i]? = some c) {q : Command κ α}
    (hq : ∀ command, q ≠ .on i command) : (s.perform q).2.contexts[i]? = some c := by
  have hlt := (List.getElem?_eq_some_iff.mp hc).1
  cases q with
  | runtime label => exact hc
  | root n =>
    cases hr : s.runtimes[n]? <;> simp [perform, hr, contexts_rootOf, hc]
  | context n =>
    cases hr : s.runtimes[n]? <;>
      simp [perform, hr, start, contexts_rootOf, List.getElem?_append_left hlt, hc]
  | detached => simp [perform, start, List.getElem?_append_left hlt, hc]
  | identify id => exact hc
  | fork n =>
    cases hn : s.contexts[n]? <;>
      simp [perform, hn, start, List.getElem?_append_left hlt, hc]
  | on n command =>
    have hne : n ≠ i := fun he => hq command (he ▸ rfl)
    cases hn : s.contexts[n]? <;> simp [perform, hn, List.getElem?_set_ne hne, hc]

theorem performAll_append (s : Scopes κ α) (xs ys : List (Command κ α)) :
    (s.performAll (xs ++ ys)).2 = ((s.performAll xs).2.performAll ys).2 := by
  induction xs generalizing s with
  | nil => rfl
  | cons q rest ih => exact ih (s.perform q).2

theorem performAll_extends (s : Scopes κ α) (commands : List (Command κ α)) :
    s.store.Extends (s.performAll commands).2.store := by
  induction commands generalizing s with
  | nil => exact .refl s.store
  | cons q rest ih => exact (perform_extends s q).trans (ih (s.perform q).2)

/-- A command is one on the context, or it leaves the context as it is. -/
theorem on_or_contexts_perform (hc : s.contexts[i]? = some c) (q : Command κ α) :
    (∃ command, q = .on i command ∧ ∀ kind, q.isOnWith i kind = kind command) ∨
      (s.perform q).2.contexts[i]? = some c := by
  by_cases hon : ∃ command, q = .on i command
  · obtain ⟨command, rfl⟩ := hon
    exact .inl ⟨command, rfl, fun kind => by simp [Command.isOnWith]⟩
  · exact .inr (contexts_perform hc fun command he => hon ⟨command, he⟩)

/-- Guards are made and dropped by no other command. -/
theorem guards_perform (hc : s.contexts[i]? = some c) {q : Command κ α}
    (hq : q.isOnWith i Context.Command.guards = false) :
    ∃ c', (s.perform q).2.contexts[i]? = some c' ∧ c'.guards = c.guards := by
  rcases on_or_contexts_perform hc q with ⟨command, rfl, hkind⟩ | hsame
  · rw [hkind] at hq
    refine ⟨_, (perform_on hc command).1, ?_⟩
    cases command with
    | enter label => simp [Context.Command.guards] at hq
    | leave => simp [Context.Command.guards] at hq
    | _ => rfl
  · exact ⟨c, hsame, rfl⟩

theorem context_perform (hc : s.contexts[i]? = some c) {q : Command κ α}
    (hq : q.isOnWith i Context.Command.moves = false) :
    (s.perform q).2.contexts[i]? = some c := by
  rcases on_or_contexts_perform hc q with ⟨command, rfl, hkind⟩ | hsame
  · rw [hkind] at hq
    rw [(perform_on hc command).1]
    cases command with
    | push label => simp [Context.Command.moves] at hq
    | pop => simp [Context.Command.moves] at hq
    | enter label => simp [Context.Command.moves, Context.Command.guards] at hq
    | leave => simp [Context.Command.moves, Context.Command.guards] at hq
    | _ => rfl
  · exact hsame

/-- A new frame keeps its parent, whatever is done. -/
theorem parent?_kept (hc : s.contexts[i]? = some c) (command : Context.Command κ α) {label : String}
    (hnew : (c.perform s.store command).2.2 = (s.store.push c.current label).2)
    (body : List (Command κ α)) :
    ((s.perform (.on i command)).2.performAll body).2.store.parent? s.store.size =
      some c.current := by
  have hstore := (perform_on hc command).2.trans hnew
  have hgrow := performAll_extends (s.perform (.on i command)).2 body
  have hlt : s.store.size < (s.perform (.on i command)).2.store.size := by
    rw [hstore, Store.size_push]
    exact Nat.lt_succ_self _
  rw [hgrow.parent? hlt, hstore, Store.parent?_push]

/-- Dropping a guard leads back to where it was made. -/
theorem context_left (hc : s.contexts[i]? = some c) {label : String} {body : List (Command κ α)}
    {c' : Context}
    (hbody : ((s.perform (.on i (.enter label))).2.performAll body).2.contexts[i]? = some c')
    (hguards : c'.guards = s.store.size :: c.guards) :
    (s.performAll (.on i (.enter label) :: body ++ [.on i .leave])).2.contexts[i]? = some c := by
  have hparent := parent?_kept hc (.enter label) rfl body
  have hleave := (perform_on hbody .leave).1
  simp only [Context.perform, hguards, hparent, Option.getD_some] at hleave
  rw [List.cons_append, performAll, performAll_append]
  exact hleave

theorem context_popped (hc : s.contexts[i]? = some c) {label : String} {inner : List (Command κ α)}
    (hinner : ((s.perform (.on i (.push label))).2.performAll inner).2.contexts[i]? =
      some ⟨s.store.size, c.guards⟩) :
    (s.performAll (.on i (.push label) :: inner ++ [.on i .pop])).2.contexts[i]? = some c := by
  have hparent := parent?_kept hc (.push label) rfl inner
  have hpop := (perform_on hinner .pop).1
  simp only [Context.perform, Store.pop, hparent, Option.getD_some] at hpop
  rw [List.cons_append, performAll, performAll_append]
  exact hpop

theorem performAll_bracket (s : Scopes κ α) (q q' : Command κ α) (body rest : List (Command κ α)) :
    (s.performAll (q :: body ++ q' :: rest)).2 =
      ((s.performAll (q :: body ++ [q'])).2.performAll rest).2 := by
  rw [← performAll_append, List.append_assoc, List.singleton_append]

theorem Guarded.guards {commands : List (Command κ α)} (h : Guarded i commands)
    (hc : s.contexts[i]? = some c) :
    ∃ c', (s.performAll commands).2.contexts[i]? = some c' ∧ c'.guards = c.guards := by
  induction h generalizing s c with
  | nil => exact ⟨c, hc, rfl⟩
  | step hq _ ih =>
    obtain ⟨c', hc', hguards⟩ := guards_perform hc hq
    obtain ⟨c'', hc'', hguards'⟩ := ih hc'
    exact ⟨c'', hc'', hguards'.trans hguards⟩
  | entered _ _ ihBody ihRest =>
    obtain ⟨c', hc', hguards⟩ := ihBody (perform_on hc (.enter _)).1
    rw [performAll_bracket]
    exact ihRest (context_left hc hc' hguards)

/-- Paired code ends where it began. -/
theorem Balanced.context {commands : List (Command κ α)} (h : Balanced i commands)
    (hc : s.contexts[i]? = some c) : (s.performAll commands).2.contexts[i]? = some c := by
  induction h generalizing s c with
  | nil => exact hc
  | step hq _ ih => exact ih (context_perform hc hq)
  | @pushed label inner rest _ _ ihInner ihRest =>
    have hinner := ihInner (perform_on hc (.push label)).1
    rw [performAll_bracket]
    exact ihRest (context_popped hc hinner)
  | entered hbody _ ih =>
    obtain ⟨c', hc', hguards⟩ := hbody.guards (perform_on hc (.enter _)).1
    rw [performAll_bracket]
    exact ih (context_left hc hc' hguards)

end Contexts

section Bindings
variable [DecidableEq κ] {id : FrameId} {key : κ} {value : α}

theorem local?_perform {s : Scopes κ α} {q : Command κ α} (h : s.binding? q ≠ some (id, key)) :
    (s.perform q).2.store.local? id key = s.store.local? id key := by
  have hroot (n : RuntimeId) (r : ScopeRuntime) :
      (s.rootOf n r).2.store.local? id key = s.store.local? id key := by
    unfold rootOf
    cases r.root with
    | some root => rfl
    | none => exact Store.local?_add s.store rfl id key
  cases q with
  | runtime label => rfl
  | root n =>
    cases hr : s.runtimes[n]? <;> simp [perform, hr, hroot]
  | context n =>
    cases hr : s.runtimes[n]? <;> simp [perform, hr, start, hroot]
  | detached => exact Store.local?_add s.store rfl id key
  | identify frame => exact Store.local?_identify s.store frame id key
  | fork n =>
    cases hn : s.contexts[n]? <;> simp [perform, hn, start]
  | on n command =>
    cases hn : s.contexts[n]? with
    | none => simp [perform, hn]
    | some c =>
      rw [(perform_on hn command).2]
      cases command with
      | push label => exact Store.local?_add s.store rfl id key
      | enter label => exact Store.local?_add s.store rfl id key
      | leave =>
        unfold Context.perform
        cases c.guards <;> rfl
      | provide k a =>
        rw [Context.perform, Store.local?_provide, if_neg]
        rintro ⟨hbound, rfl, rfl⟩
        simp [binding?, hn, hbound] at h
      | _ => rfl

/-- A binding is made by a provide that the frame takes. -/
theorem provide_of_binding? {s : Scopes κ α} {q : Command κ α} (h : s.binding? q = some (id, key)) :
    ∃ n c value, q = .on n (.provide key value) ∧ s.contexts[n]? = some c ∧ c.current = id ∧
      (s.store.provide id key value).1 = true := by
  cases q with
  | on n command =>
    cases command with
    | provide k a =>
      obtain ⟨c, hn, hc⟩ := Option.bind_eq_some_iff.mp h
      obtain ⟨hbound, hsame⟩ := Option.ite_none_right_eq_some.mp hc
      simp only [Option.some.injEq, Prod.mk.injEq] at hsame
      obtain ⟨rfl, rfl⟩ := hsame
      exact ⟨n, c, a, rfl, hn, rfl, hbound⟩
    | _ => simp [binding?] at h
  | _ => simp [binding?] at h

/-- A frame that binds a key refuses another value for it. -/
theorem local?_perform_kept {s : Scopes κ α} (q : Command κ α)
    (h : s.store.local? id key = some value) :
    (s.perform q).2.store.local? id key = some value := by
  rw [local?_perform, h]
  intro hbinding
  obtain ⟨_, _, _, _, _, _, hbound⟩ := provide_of_binding? hbinding
  rw [Store.local?_of_provide hbound] at h
  exact absurd h (by simp)

theorem local?_performAll {s : Scopes κ α} {commands : List (Command κ α)}
    (h : (id, key) ∉ s.bindings commands) :
    (s.performAll commands).2.store.local? id key = s.store.local? id key := by
  induction commands generalizing s with
  | nil => rfl
  | cons q rest ih =>
    rw [bindings, List.mem_append, not_or] at h
    have hfirst : s.binding? q ≠ some (id, key) := by simpa using h.1
    exact (ih h.2).trans (local?_perform hfirst)

theorem local?_performAll_kept {s : Scopes κ α} (commands : List (Command κ α))
    (h : s.store.local? id key = some value) :
    (s.performAll commands).2.store.local? id key = some value := by
  induction commands generalizing s with
  | nil => exact h
  | cons q rest ih => exact ih (local?_perform_kept q h)

end Bindings

section Restored
variable [DecidableEq κ] {s : Scopes κ α} {i : ContextId} {c : Context}
  {commands : List (Command κ α)}

theorem perform_resolve (hc : s.contexts[i]? = some c) (key : κ) :
    (s.perform (.on i (.resolve key))).1 = .value (s.store.resolve? c.current key) := by
  simp [perform, hc, Context.perform]

/-- A context that is where it was finds what it found, unless a frame that it searches has got a binding. -/
theorem restores_of_context (hs : s.Valid) (hc : s.contexts[i]? = some c)
    (hafter : (s.performAll commands).2.contexts[i]? = some c) : s.Restores i commands where
  context := hafter.trans hc.symm
  resolves := by
    intro c' key hc' hfree
    obtain rfl : c = c' := Option.some.inj (hc.symm.trans hc')
    have hvalid := hs.contexts c (List.mem_of_getElem? hc)
    have hchain := (performAll_extends s commands).ancestors hs.store
      (performAll_environments hs commands).2.store hvalid.current
    rw [perform_resolve hafter, perform_resolve hc, Store.resolve?_congr hchain]
    intro id hid
    exact local?_performAll (hfree id hid)
  kept := by
    rintro before between rest rfl id key value hvalue
    rw [performAll_append]
    exact local?_performAll_kept between hvalue

/-- Whatever has been done before with any contexts, a context is where it was once a scope has been entered and left
again, if scopes were entered and left in pairs in between; and so it is after code whose pushes and pops are paired.
It finds what it found before under every key, unless the code has made a binding under this key in the frame of the
context or in one that encloses it, from whichever context. No binding is ever replaced. -/
theorem paired_code_restores (history : List (Command κ α)) (i : ContextId)
    (hi : i < (performAll {} history).2.contexts.length) :
    let s := (performAll {} history).2
    (∀ label body, Guarded i body →
      s.Restores i (.on i (.enter label) :: body ++ [.on i .leave])) ∧
    ∀ commands, Balanced i commands → s.Restores i commands := by
  intro s
  have hs : s.Valid := (performAll_environments valid_empty history).2
  have hc : s.contexts[i]? = some s.contexts[i] := List.getElem?_eq_getElem hi
  have hpaired (commands : List (Command κ α)) (h : Balanced i commands) : s.Restores i commands :=
    restores_of_context hs hc (h.context hc)
  exact ⟨fun label body hbody => hpaired _ (.entered hbody .nil), hpaired⟩

end Restored

/-- Frames `0`, `1` and `2` enclose each other, and the context points at the innermost one. -/
def nestedFrames : List (Command String Nat) :=
  [.detached, .on 0 (.push "Outer"), .on 0 (.provide "a" 1), .on 0 (.push "Inner")]

/-- A scope whose code is left in disorder: it pops to the root and binds a key in a frame outside of the scope. -/
def disorderly : List (Command String Nat) :=
  [.on 0 (.push "Leaked"), .on 0 (.provide "b" 2), .fork 0] ++
  (.on 0 (.enter "Nested") ::
    [.on 0 .pop, .on 0 .pop, .on 0 .pop, .on 0 .pop, .on 0 (.provide "a" 9),
      .on 0 (.provide "c" 3), .on 0 .pop, .on 0 .pop] ++
  .on 0 .leave :: [.on 1 .pop, .on 1 (.provide "b" 4), .on 0 .pop])

theorem paired_code_restores_disorderly :
    let s := (performAll {} nestedFrames).2
    let commands := .on 0 (.enter "Job") :: disorderly ++ [.on 0 .leave]
    0 < s.contexts.length ∧ Guarded 0 disorderly ∧ s.Restores 0 commands ∧
      s.bindings commands = [(4, "b"), (1, "c"), (3, "b")] ∧
      (s.performAll commands).2.contexts.map Context.current = [2, 3] := by
  intro s commands
  have hi : 0 < s.contexts.length := by decide
  have hinner : Guarded 0 [.on 0 .pop, .on 0 .pop, .on 0 .pop, .on 0 .pop, .on 0 (.provide "a" 9),
      .on 0 (.provide "c" 3), .on 0 .pop, .on 0 .pop] := by
    repeat constructor
  have hrest : Guarded 0 [.on 1 .pop, .on 1 (.provide "b" 4), .on 0 .pop] := by
    repeat constructor
  have hbody : Guarded 0 disorderly :=
    .step rfl (.step rfl (.step rfl (.entered hinner hrest)))
  have hrestores := (paired_code_restores nestedFrames 0 hi).1 "Job" disorderly hbody
  exact ⟨hi, hbody, hrestores, by decide, by decide⟩

end Scopes

end AmbientScope
