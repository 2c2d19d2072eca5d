import AmbientScope.Proofs.ReplayedScopes
import Mathlib.Data.List.Perm.Subperm
import Mathlib.Logic.Function.Iterate

/-!
# Steps of a replay

A replay as a machine that does one thing after the other. What is left to do stands on a stack; entering a routine
puts its body there and, beneath it, that the scope and the routine are to be left again. So the routines that are
still to be left are those that are running, innermost first, and they have different names. A call can only enter one
that is not running, so calls nest no deeper than there are names, and whatever is called ends with the same routines
running as before. The machine does not count how deep calls nest; a replay that does comes to the same end.
-/

set_option autoImplicit false

namespace AmbientScope

namespace Replay

inductive Work where
  | run (op : Operation) (reported : Option UInt32)
  | call (name : String) (reported : Option UInt32)
  | leaveScope
  | leave (name : String)

/-- The routine that is running until the work is done. -/
def Work.running? : Work → Option String
  | .leave name => some name
  | _ => none

/-- What an operation of the entry point does. -/
def State.operate (s : State) (c : Call) (offset : UInt32) : ScopeOperation → State
  | .push => s.push (c.label.getD Store.defaultLabel)
  | .pop => s.pop
  | .provide => s.provide (bindingName c) offset
  | _ => s

/-- The routine that a call enters, and its body, if it enters one. -/
def opened? (routines : List Declaration) (s : State) (name : String) :
    Option (Declaration × Operation) :=
  match find? routines name with
  | none => none
  | some d =>
    match d.body with
    | none => none
    | some body => if name ∈ s.active then none else some (d, body)

section Steps
variable (v : Vocabulary) (routines : List Declaration)

/-- Do the work at hand: what there is to do next because of it, and the state afterwards. -/
def perform (s : State) : Work → List Work × State
  | .run op reported =>
    match op with
    | .block children => (children.map (.run · reported), s)
    | .other children => (children.map (.run · reported), s)
    | .invocation c arguments =>
      let offset := reported.getD c.span.start
      let later := arguments.map (Work.run · reported)
      match v.operation? c.target with
      | some op => (later, s.operate c offset op)
      | none => (.call c.target.qualified (some offset) :: later, s)
    | .conditional _ _ _ => ([], s)
    | .loop _ => ([], s)
    | .switch _ _ => ([], s)
    | .attempt _ _ _ => ([], s)
  | .call name reported =>
    match opened? routines s name with
    | none => ([], s)
    | some (d, body) =>
      match v.boundaryAttribute? d.attributes with
      | some attr =>
        ([.run body reported, .leaveScope, .leave name], (s.enter name).push (v.markerName attr))
      | none => ([.run body reported, .leave name], s.enter name)
  | .leaveScope => ([], s.pop)
  | .leave name => ([], s.leave name)

structure Machine where
  /-- What is left to do, first things first. -/
  todo : List Work
  state : State

namespace Machine

/-- The names of the routines that are running, innermost first. -/
def running (m : Machine) : List String := m.todo.filterMap Work.running?

/-- A machine that has nothing left to do stays as it is. -/
def step : Machine → Machine
  | ⟨[], s⟩ => ⟨[], s⟩
  | ⟨t :: rest, s⟩ => ⟨(perform v routines s t).1 ++ rest, (perform v routines s t).2⟩

end Machine

/-- All of this work gets done, and this is the state then. -/
inductive Ends : List Work → State → State → Prop
  | nil (s : State) : Ends [] s s
  | cons {t : Work} {rest : List Work} {s s' : State}
    (h : Ends ((perform v routines s t).1 ++ rest) (perform v routines s t).2 s') :
    Ends (t :: rest) s s'

variable {v routines}

theorem Ends.append {ts us : List Work} {s s' s'' : State} (h : Ends v routines ts s s')
    (h' : Ends v routines us s' s'') : Ends v routines (ts ++ us) s s'' := by
  induction h with
  | nil => exact h'
  | cons _ ih =>
    have htail := ih h'
    rw [List.append_assoc] at htail
    exact .cons htail

/-- Work that gets done gets done on top of anything else, which is not touched before. -/
theorem Ends.iterate {ts : List Work} {s s' : State} (h : Ends v routines ts s s')
    (rest : List Work) :
    ∃ n, (Machine.step v routines)^[n] ⟨ts ++ rest, s⟩ = ⟨rest, s'⟩ ∧
      ∀ k < n, ∃ t above,
        ((Machine.step v routines)^[k] ⟨ts ++ rest, s⟩).todo = t :: above ++ rest := by
  induction h with
  | nil s => exact ⟨0, rfl, fun k hk => absurd hk (Nat.not_lt_zero k)⟩
  | @cons t later s s' _ ih =>
    obtain ⟨n, hn, habove⟩ := ih
    have hstep : Machine.step v routines ⟨t :: later ++ rest, s⟩ =
        ⟨(perform v routines s t).1 ++ later ++ rest, (perform v routines s t).2⟩ := by
      rw [List.append_assoc]
      rfl
    refine ⟨n + 1, ?_, fun k hk => ?_⟩
    · rw [Function.iterate_succ_apply, hstep]
      exact hn
    · cases k with
      | zero => exact ⟨t, later, rfl⟩
      | succ k =>
        rw [Function.iterate_succ_apply, hstep]
        exact habove k (Nat.lt_of_succ_lt_succ hk)

end Steps

section Termination
variable {v : Vocabulary} {routines : List Declaration}

/-- How many declarations have a name that is not running. -/
def unentered (routines : List Declaration) (active : List String) : Nat :=
  (routines.filter (·.qualifiedName ∉ active)).length

theorem unentered_lt {active : List String} {name : String} {d : Declaration}
    (hd : find? routines name = some d) (hactive : name ∉ active) :
    unentered routines (name :: active) < unentered routines active := by
  obtain ⟨hmem, rfl⟩ := mem_of_find? hd
  have hfilter : routines.filter (·.qualifiedName ∉ d.qualifiedName :: active) =
      (routines.filter (·.qualifiedName ∉ active)).filter
        (·.qualifiedName ≠ d.qualifiedName) := by
    simp [List.filter_filter]
  rw [unentered, hfilter, unentered, List.length_filter_lt_length_iff_exists]
  exact ⟨d, List.mem_filter.mpr ⟨hmem, by simpa using hactive⟩, by simp⟩

theorem unentered_le (routines : List Declaration) (active : List String) :
    unentered routines active ≤ routines.length :=
  List.length_filter_le _ _

theorem opened?_eq_some_iff {s : State} {name : String} {d : Declaration} {body : Operation} :
    opened? routines s name = some (d, body) ↔
      find? routines name = some d ∧ d.body = some body ∧ name ∉ s.active := by
  unfold opened?
  cases find? routines name with
  | none => simp
  | some e =>
    cases hbody : e.body with
    | none =>
      simp only [hbody, reduceCtorEq, Option.some.injEq, false_iff]
      rintro ⟨rfl, hsome, _⟩
      simp [hbody] at hsome
    | some b =>
      by_cases hactive : name ∈ s.active
      · simp [hbody, hactive]
      · simp only [hbody, hactive, if_false, Option.some.injEq, Prod.mk.injEq, not_false_eq_true,
          and_true]
        constructor
        · rintro ⟨rfl, rfl⟩
          exact ⟨rfl, hbody⟩
        · rintro ⟨rfl, hsome⟩
          exact ⟨rfl, Option.some.inj (hbody.symm.trans hsome)⟩

theorem runRoutine_succ (depth : Nat) (name : String) (reported : Option UInt32) (s : State) :
    runRoutine v routines (depth + 1) name reported s =
      match opened? routines s name with
      | none => s
      | some (d, body) =>
        (inScope v d.attributes
          (run v (fun callee offset => runRoutine v routines depth callee (some offset)) reported
            body) (s.enter name)).leave name := by
  unfold opened?
  rw [runRoutine]
  cases find? routines name with
  | none => rfl
  | some d =>
    cases hbody : d.body with
    | none => simp only [hbody]
    | some body => by_cases hactive : name ∈ s.active <;> simp [hbody, hactive]

theorem invoke_eq (nested : Routines) (c : Call) (offset : UInt32) (s : State) :
    invoke v nested c offset s =
      match v.operation? c.target with
      | some op => s.operate c offset op
      | none => nested c.target.qualified offset s := by
  unfold invoke
  cases v.operation? c.target with
  | none => rfl
  | some op => cases op <;> rfl

/-- Calls end as the given routines do, as long as these routines are running, and leave them running. -/
def Follows (v : Vocabulary) (routines : List Declaration) (nested : Routines)
    (active : List String) : Prop :=
  ∀ name offset (s : State), s.active = active →
    Ends v routines [.call name (some offset)] s (nested name offset s) ∧
      (nested name offset s).active = active

theorem operate_active (s : State) (c : Call) (offset : UInt32) (op : ScopeOperation) :
    (s.operate c offset op).active = s.active := by
  cases op <;> rfl

section Bodies
variable {nested : Routines} {active : List String}

mutual

theorem Follows.run (h : Follows v routines nested active) (reported : Option UInt32) :
    ∀ (op : Operation) {s : State}, s.active = active →
    Ends v routines [.run op reported] s (run v nested reported op s) ∧
      (run v nested reported op s).active = active
  | .block children, s, hs => by
    obtain ⟨hends, hactive⟩ := h.runAll reported children hs
    exact ⟨.cons (by simpa [perform, Replay.run] using hends), hactive⟩
  | .other children, s, hs => by
    obtain ⟨hends, hactive⟩ := h.runAll reported children hs
    exact ⟨.cons (by simpa [perform, Replay.run] using hends), hactive⟩
  | .invocation c arguments, s, hs => by
    rw [Replay.run, invoke_eq]
    cases hop : v.operation? c.target with
    | some op =>
      have hkept := (operate_active s c (reported.getD c.span.start) op).trans hs
      obtain ⟨hends, hactive⟩ := h.runAll reported arguments hkept
      exact ⟨.cons (by simpa [perform, hop] using hends), hactive⟩
    | none =>
      obtain ⟨hcall, hkept⟩ := h c.target.qualified (reported.getD c.span.start) s hs
      obtain ⟨hends, hactive⟩ := h.runAll reported arguments hkept
      exact ⟨.cons (by simpa [perform, hop] using hcall.append hends), hactive⟩
  | .conditional _ _ _, s, hs => ⟨.cons (.nil s), hs⟩
  | .loop _, s, hs => ⟨.cons (.nil s), hs⟩
  | .switch _ _, s, hs => ⟨.cons (.nil s), hs⟩
  | .attempt _ _ _, s, hs => ⟨.cons (.nil s), hs⟩

theorem Follows.runAll (h : Follows v routines nested active) (reported : Option UInt32) :
    ∀ (ops : List Operation) {s : State}, s.active = active →
    Ends v routines (ops.map (.run · reported)) s (runAll v nested reported ops s) ∧
      (runAll v nested reported ops s).active = active
  | [], s, hs => ⟨.nil s, hs⟩
  | op :: rest, s, hs => by
    obtain ⟨hfirst, hkept⟩ := h.run reported op hs
    obtain ⟨hrest, hactive⟩ := h.runAll reported rest hkept
    exact ⟨hfirst.append hrest, hactive⟩

end

end Bodies

/-- A call ends, in the state that a run of the routine leaves if calls may nest deeper than there are names that are not
running. -/
theorem ends_call {depth : Nat} (name : String) (reported : Option UInt32) {s : State}
    (hdepth : unentered routines s.active < depth) :
    Ends v routines [.call name reported] s (runRoutine v routines depth name reported s) := by
  induction depth generalizing name reported s with
  | zero => exact absurd hdepth (Nat.not_lt_zero _)
  | succ depth ih =>
    rw [runRoutine_succ]
    refine .cons ?_
    cases hopened : opened? routines s name with
    | none => simpa [perform, hopened] using Ends.nil s
    | some found =>
      obtain ⟨d, body⟩ := found
      obtain ⟨hd, _, hactive⟩ := opened?_eq_some_iff.mp hopened
      -- one name fewer is left for the calls in the body, which therefore get by with one level less
      have hfewer := Nat.lt_of_lt_of_le (unentered_lt hd hactive) (Nat.le_of_lt_succ hdepth)
      have hnested : Follows v routines
          (fun callee offset => runRoutine v routines depth callee (some offset))
          (name :: s.active) := fun callee offset u hu =>
        ⟨ih callee (some offset) (hu ▸ hfewer), (runRoutine_active _ _ _ _ _).trans hu⟩
      unfold inScope
      cases hattr : v.boundaryAttribute? d.attributes with
      | none =>
        have hrun := (hnested.run reported body (show (s.enter name).active = _ from rfl)).1
        simpa [perform, hopened, hattr] using hrun.append (.cons (.nil _))
      | some attr =>
        have hrun := (hnested.run reported body
          (show ((s.enter name).push (v.markerName attr)).active = _ from rfl)).1
        simpa [perform, hopened, hattr] using hrun.append (.cons (.cons (.nil _)))

end Termination

section Running
variable {v : Vocabulary} {routines : List Declaration} {s : State} {t : Work}

/-- What a step changes about the routines that are running. -/
inductive Moves (routines : List Declaration) (s : State) (t : Work) (ts : List Work) (s' : State) :
    Prop
  | stays (ht : t.running? = none) (hts : ts.filterMap Work.running? = [])
    (hactive : s'.active = s.active) (hvalid : s.Valid → s'.Valid)
  | enters (d : Declaration) (hd : d ∈ routines) (hnew : d.qualifiedName ∉ s.active)
    (ht : t.running? = none) (hts : ts.filterMap Work.running? = [d.qualifiedName])
    (hactive : s'.active = d.qualifiedName :: s.active) (hvalid : s.Valid → s'.Valid)
  | leaves (name : String) (ht : t = .leave name) (hts : ts = []) (hs : s' = s.leave name)

theorem State.Valid.operate (h : s.Valid) (c : Call) (offset : UInt32) (op : ScopeOperation) :
    (s.operate c offset op).Valid := by
  cases op with
  | push => exact h.push _
  | pop => exact h.pop
  | provide => exact h.provide _ offset
  | _ => exact h

theorem running_runs (ops : List Operation) (reported : Option UInt32) :
    (ops.map (Work.run · reported)).filterMap Work.running? = [] := by
  simp [List.filterMap_map, Work.running?, Function.comp_def]

theorem perform_moves (v : Vocabulary) (routines : List Declaration) (s : State) (t : Work) :
    Moves routines s t (perform v routines s t).1 (perform v routines s t).2 := by
  cases t with
  | run op reported =>
    cases op with
    | block children => exact .stays rfl (running_runs children reported) rfl id
    | other children => exact .stays rfl (running_runs children reported) rfl id
    | invocation c arguments =>
      unfold perform
      cases hop : v.operation? c.target with
      | some op =>
        simp only [hop]
        exact .stays rfl (running_runs arguments reported) (operate_active s c _ op)
          fun h => h.operate c _ op
      | none =>
        simp only [hop]
        exact .stays rfl (running_runs arguments reported) rfl id
    | conditional _ _ _ => exact .stays rfl rfl rfl id
    | loop _ => exact .stays rfl rfl rfl id
    | switch _ _ => exact .stays rfl rfl rfl id
    | attempt _ _ _ => exact .stays rfl rfl rfl id
  | call name reported =>
    unfold perform
    cases hopened : opened? routines s name with
    | none =>
      simp only [hopened]
      exact .stays rfl rfl rfl id
    | some found =>
      obtain ⟨d, body⟩ := found
      obtain ⟨hd, _, hactive⟩ := opened?_eq_some_iff.mp hopened
      obtain ⟨hmem, rfl⟩ := mem_of_find? hd
      simp only [hopened]
      cases v.boundaryAttribute? d.attributes with
      | none => exact .enters d hmem hactive rfl rfl rfl fun h => h.enter _
      | some attr => exact .enters d hmem hactive rfl rfl rfl fun h => (h.enter _).push _
  | leaveScope => exact .stays rfl rfl rfl State.Valid.pop
  | leave name => exact .leaves name rfl rfl rfl

namespace Machine
variable {m : Machine}

/-- The routines that are running are those that are still to be left, they have different names and are declared, and
the scopes are in order. -/
structure Sound (routines : List Declaration) (m : Machine) : Prop where
  active : m.state.active = m.running
  distinct : m.running.Nodup
  declared : ∀ name ∈ m.running, name ∈ routines.map Declaration.qualifiedName
  scopes : m.state.Valid

theorem sound_start (routines : List Declaration) (name : String) (reported : Option UInt32) :
    Sound routines ⟨[.call name reported], State.start⟩ where
  active := rfl
  distinct := List.nodup_nil
  declared := fun _ h => absurd h List.not_mem_nil
  scopes := State.valid_start

theorem Sound.step (h : m.Sound routines) : (m.step v routines).Sound routines := by
  obtain ⟨todo, s⟩ := m
  cases todo with
  | nil => exact h
  | cons t rest =>
    obtain ⟨hactive, hdistinct, hdeclared, hscopes⟩ := h
    have hafter : (step v routines ⟨t :: rest, s⟩).running =
        (perform v routines s t).1.filterMap Work.running? ++ rest.filterMap Work.running? :=
      List.filterMap_append
    cases perform_moves v routines s t with
    | stays ht hts hsame hvalid =>
      have hrunning : (step v routines ⟨t :: rest, s⟩).running = running ⟨t :: rest, s⟩ := by
        rw [hafter, hts, running, List.filterMap_cons_none ht]
        rfl
      exact ⟨by rw [hrunning, ← hactive]; exact hsame, hrunning ▸ hdistinct, hrunning ▸ hdeclared,
        hvalid hscopes⟩
    | enters d hd hnew ht hts hentered hvalid =>
      have hrunning : (step v routines ⟨t :: rest, s⟩).running =
          d.qualifiedName :: running ⟨t :: rest, s⟩ := by
        rw [hafter, hts, running, List.filterMap_cons_none ht]
        rfl
      refine ⟨by rw [hrunning, ← hactive]; exact hentered, ?_, ?_, hvalid hscopes⟩
      · rw [hrunning]
        exact List.nodup_cons.mpr ⟨hactive ▸ hnew, hdistinct⟩
      · rw [hrunning]
        exact List.forall_mem_cons.mpr ⟨List.mem_map_of_mem hd, hdeclared⟩
    | leaves name ht hts hleft =>
      subst ht
      have hrunning : running ⟨.leave name :: rest, s⟩ =
          name :: (step v routines ⟨.leave name :: rest, s⟩).running := rfl
      rw [hrunning] at hactive hdistinct hdeclared
      obtain ⟨hnew, hdistinct⟩ := List.nodup_cons.mp hdistinct
      refine ⟨?_, hdistinct, (List.forall_mem_cons.mp hdeclared).2, hscopes.leave name⟩
      change s.active.filter (· ≠ name) = _
      rw [hactive]
      exact filter_ne_cons hnew

theorem Sound.iterate (h : m.Sound routines) (n : Nat) :
    ((Machine.step v routines)^[n] m).Sound routines := by
  induction n with
  | zero => exact h
  | succ n ih =>
    rw [Function.iterate_succ_apply']
    exact ih.step

theorem Sound.length_running_le (h : m.Sound routines) : m.running.length ≤ routines.length := by
  have hle := (h.distinct.subperm h.declared).length_le
  rwa [List.length_map] at hle

end Machine

end Running

end Replay

namespace Scenario

open Replay

/-- A replay of the entry after so many steps. -/
def replayAfter (s : Scenario) (entry : String) (n : Nat) : Machine :=
  (Machine.step {} s.routines)^[n] ⟨[.call (entryName entry) none], State.start⟩

/-- The machine comes to an end, with nothing running any more and the refusals of the replay. At any time, the routines
that are active are those whose runs have not returned yet; they have different names, and there are no more of them
than there are routines. The current frame lies in the one that the replay has started in and is no less deep. Every
call returns, as a run of the routine does and with the same routines active as before, and what is left to do after it
is not touched meanwhile. -/
theorem replay_ends (s : Scenario) (entry : String) :
    (∃ n, (s.replayAfter entry n).todo = [] ∧ (s.replayAfter entry n).state.active = [] ∧
      (s.replayAfter entry n).state.rejected = s.replay entry) ∧
    ∀ n, let m := s.replayAfter entry n
      (m.state.active = m.running ∧ m.running.Nodup ∧ m.running.length ≤ s.routines.length) ∧
      (m.state.store.Encloses State.start.current m.state.current ∧
        m.state.store.depth State.start.current ≤ m.state.store.depth m.state.current) ∧
      ∀ name reported rest, m.todo = .call name reported :: rest →
        ∃ k, (s.replayAfter entry (n + k)).todo = rest ∧
          (s.replayAfter entry (n + k)).state =
            runRoutine {} s.routines (s.routines.length + 1) name reported m.state ∧
          (s.replayAfter entry (n + k)).state.active = m.state.active ∧
          ∀ j < k, ∃ t above, (s.replayAfter entry (n + j)).todo = t :: above ++ rest := by
  have hcall (name : String) (reported : Option UInt32) (u : State) :=
    ends_call (v := {}) (s := u) name reported (Nat.lt_succ_of_le (unentered_le s.routines u.active))
  constructor
  · obtain ⟨n, hn, _⟩ := (hcall (entryName entry) none State.start).iterate []
    have hafter : s.replayAfter entry n =
        ⟨[], runRoutine {} s.routines (s.routines.length + 1) (entryName entry) none .start⟩ := hn
    refine ⟨n, ?_⟩
    rw [hafter]
    exact ⟨rfl, runRoutine_active s.routines _ _ none State.start, rfl⟩
  · intro n m
    have hsound : m.Sound s.routines := (Machine.sound_start s.routines _ none).iterate n
    refine ⟨⟨hsound.active, hsound.distinct, hsound.length_running_le⟩,
      ⟨hsound.scopes.inside, hsound.scopes.inside.depth_le hsound.scopes.store⟩, ?_⟩
    intro name reported rest htodo
    obtain ⟨k, hk, habove⟩ := (hcall name reported m.state).iterate rest
    have hlater (j : Nat) : s.replayAfter entry (n + j) =
        (Machine.step {} s.routines)^[j] ⟨[.call name reported] ++ rest, m.state⟩ := by
      have hm : m = ⟨[.call name reported] ++ rest, m.state⟩ :=
        congrArg (Machine.mk · m.state) htodo
      rw [← hm, replayAfter, Nat.add_comm, Function.iterate_add_apply]
      rfl
    have hreturn : s.replayAfter entry (n + k) =
        ⟨rest, runRoutine {} s.routines (s.routines.length + 1) name reported m.state⟩ :=
      (hlater k).trans hk
    refine ⟨k, ?_, ?_, ?_, fun j hj => ?_⟩
    · rw [hreturn]
    · rw [hreturn]
    · rw [hreturn]
      exact runRoutine_active s.routines _ name reported m.state
    · rw [hlater]
      exact habove j hj

/-- Two routines call each other, and one pops more than it has pushed. The call in an argument leads nowhere. -/
def tangle : Scenario :=
  ⟨[routine "Main" none [] none
      [call "Loop" 1 [call "Missing" 2 []], provide "Logger" 3],
    routine "Loop" (some "JobScope") [] none
      [pop 100, pop 101, provide "Logger" 102, call "Main" 103 []]]⟩

/-- After nine steps the inner routine calls the one that has called it. -/
theorem replay_ends_tangle :
    let m := tangle.replayAfter "Main" 9
    m.running = ["App.Svc.Loop", "App.Svc.Main"] ∧
      ∃ reported rest, m.todo = .call "App.Svc.Main" reported :: rest ∧
        (∃ k, (tangle.replayAfter "Main" (9 + k)).todo = rest ∧
          (tangle.replayAfter "Main" (9 + k)).state.active = m.state.active) ∧
        tangle.replay "Main" = [3] := by
  intro m
  obtain ⟨-, hsteps⟩ := replay_ends tangle "Main"
  obtain ⟨-, -, hreturns⟩ := hsteps 9
  obtain ⟨k, hrest, -, hactive, -⟩ := hreturns _ _ _ rfl
  exact ⟨rfl, _, _, rfl, ⟨k, hrest, hactive⟩, rfl⟩

end Scenario

end AmbientScope
