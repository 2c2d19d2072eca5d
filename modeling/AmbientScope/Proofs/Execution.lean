import AmbientScope.Proofs.CallPaths
import AmbientScope.Scenario.Replay

/-!
# Executions

What the unconditional code of a routine does to the scopes is a list of events: those of its calls that are sure to run,
in order, each routine that is called being left out while it is active. A replay lets a scope store take these events
one after the other.
-/

set_option autoImplicit false

namespace AmbientScope

/-- The calls of a list that are sure to run. -/
def Call.sure (xs : List (Call × Bool)) : List Call := (xs.filter fun x => !x.2).map Prod.fst

theorem Call.sure_append (xs ys : List (Call × Bool)) :
    Call.sure (xs ++ ys) = Call.sure xs ++ Call.sure ys := by
  simp [Call.sure]

theorem Call.sure_of_hidden {xs : List (Call × Bool)} (h : ∀ x ∈ xs, x.2 = true) :
    Call.sure xs = [] := by
  have hnone : xs.filter (fun x => !x.2) = [] := by
    apply List.filter_eq_nil_iff.mpr
    intro x hx
    simp [h x hx]
  simp [Call.sure, hnone]

namespace Operation

theorem calls_hidden (op : Operation) : ∀ x ∈ op.calls true, x.2 = true := by
  rw [← op.map_calls true]
  intro x hx
  obtain ⟨y, _, rfl⟩ := List.mem_map.mp hx
  rfl

/-- A control construct has no calls that are sure to run. -/
theorem sure_calls_of_isControl {op : Operation} (h : op.isControl = true) :
    Call.sure (op.calls false) = [] := by
  apply Call.sure_of_hidden
  have hsame : op.calls false = op.calls true := by
    cases op with
    | conditional _ _ _ => rfl
    | loop _ => rfl
    | switch _ _ => rfl
    | attempt _ _ _ => rfl
    | _ => simp [isControl] at h
  rw [hsame]
  exact calls_hidden op

end Operation

/-- Something that happens to the scopes when code runs. -/
inductive Event (α : Type) where
  | push (label : String)
  | pop
  | provide (value : α) (offset : UInt32)

namespace Replay

def State.apply (s : State) : Event Call → State
  | .push label => s.push label
  | .pop => s.pop
  | .provide c offset => s.provide (bindingName c) offset

section Calls
variable (v : Vocabulary) (routines : Routines) (reported : Option UInt32)

mutual

/-- Running an operation invokes the calls that are sure to run. -/
theorem run_eq : ∀ (op : Operation) (s : State), run v routines reported op s =
    (Call.sure (op.calls false)).foldl
      (fun s c => invoke v routines c (reported.getD c.span.start) s) s
  | .block children, s => runAll_eq children s
  | .invocation c arguments, s => runAll_eq arguments _
  | .conditional _ _ _, s => by rw [Operation.sure_calls_of_isControl rfl]; rfl
  | .loop _, s => by rw [Operation.sure_calls_of_isControl rfl]; rfl
  | .switch _ _, s => by rw [Operation.sure_calls_of_isControl rfl]; rfl
  | .attempt _ _ _, s => by rw [Operation.sure_calls_of_isControl rfl]; rfl
  | .other children, s => runAll_eq children s

theorem runAll_eq : ∀ (ops : List Operation) (s : State), runAll v routines reported ops s =
    (Call.sure (Operation.listCalls false ops)).foldl
      (fun s c => invoke v routines c (reported.getD c.span.start) s) s
  | [], _ => rfl
  | op :: rest, s => by
    rw [runAll, run_eq op s, runAll_eq rest, Operation.listCalls, Call.sure_append,
      List.foldl_append]

end

end Calls

theorem mem_of_find? {routines : List Declaration} {name : String} {d : Declaration}
    (h : find? routines name = some d) : d ∈ routines ∧ d.qualifiedName = name :=
  ⟨List.mem_reverse.mp (List.mem_of_find?_eq_some h), by simpa using List.find?_some h⟩

/-- The events of one call, given those of the routines. -/
def callEvents (v : Vocabulary) (nested : String → UInt32 → List (Event Call)) (c : Call)
    (offset : UInt32) : List (Event Call) :=
  match v.operation? c.target with
  | some .push => [.push (c.label.getD Store.defaultLabel)]
  | some .pop => [.pop]
  | some .provide => [.provide c offset]
  | some _ => []
  | none => nested c.target.qualified offset

/-- The events of a body in a scope of its own if the attributes ask for one. -/
def scopedEvents (v : Vocabulary) (attrs : List String) (es : List (Event Call)) :
    List (Event Call) :=
  match v.boundaryAttribute? attrs with
  | some attr => .push (v.markerName attr) :: es ++ [.pop]
  | none => es

/-- The events of a run of a routine while others are active. -/
def events (v : Vocabulary) (routines : List Declaration) :
    (depth : Nat) → (active : List String) → String → Option UInt32 → List (Event Call)
  | 0, _, _, _ => []
  | depth + 1, active, name, reported =>
    match find? routines name with
    | none => []
    | some d =>
      match d.body with
      | none => []
      | some body =>
        if name ∈ active then []
        else
          scopedEvents v d.attributes
            ((Call.sure (body.calls false)).flatMap fun c =>
              callEvents v
                (fun callee offset =>
                  events v routines depth (name :: active) callee (some offset))
                c (reported.getD c.span.start))

theorem events_succ {v : Vocabulary} {routines : List Declaration} {active : List String}
    {name : String} {d : Declaration} {body : Operation} (hd : find? routines name = some d)
    (hbody : d.body = some body) (hactive : name ∉ active) (depth : Nat)
    (reported : Option UInt32) :
    events v routines (depth + 1) active name reported =
      scopedEvents v d.attributes
        ((Call.sure (body.calls false)).flatMap fun c =>
          callEvents v
            (fun callee offset => events v routines depth (name :: active) callee (some offset))
            c (reported.getD c.span.start)) := by
  simp only [events, hd, hbody, if_neg hactive]

section Active
variable (es : List (Event Call)) (s : State)

theorem apply_withActive (active : List String) (e : Event Call) :
    State.apply { s with active := active } e = { s.apply e with active := active } := by
  cases e <;> rfl

theorem foldl_apply_withActive (active : List String) :
    es.foldl State.apply { s with active := active } =
      { es.foldl State.apply s with active := active } := by
  induction es generalizing s with
  | nil => rfl
  | cons e rest ih =>
    rw [List.foldl_cons, List.foldl_cons, apply_withActive]
    exact ih (s.apply e)

/-- Which routines are active is no matter of the events. -/
theorem foldl_apply_active : (es.foldl State.apply s).active = s.active := by
  have hsame := congrArg State.active (foldl_apply_withActive es s s.active)
  exact hsame

theorem filter_ne_cons {name : String} {names : List String} (h : name ∉ names) :
    (name :: names).filter (· ≠ name) = names := by
  rw [List.filter_cons_of_neg (by simp)]
  apply List.filter_eq_self.mpr
  intro q hq
  simpa using fun he : q = name => h (he ▸ hq)

theorem leave_foldl_enter {name : String} (h : name ∉ s.active) :
    (es.foldl State.apply (s.enter name)).leave name = es.foldl State.apply s := by
  unfold State.enter
  rw [foldl_apply_withActive]
  simp only [State.leave, filter_ne_cons h]
  rw [← foldl_apply_active es s]

end Active

section Runs
variable {v : Vocabulary}

theorem inScope_eq (attrs : List String) {body : State → State} {es : List (Event Call)}
    {s : State}
    (h : ∀ u : State, u.active = s.active → body u = es.foldl State.apply u) :
    inScope v attrs body s = (scopedEvents v attrs es).foldl State.apply s := by
  unfold inScope scopedEvents
  cases v.boundaryAttribute? attrs with
  | none => exact h s rfl
  | some attr =>
    have hbody := h (s.push (v.markerName attr)) rfl
    simp only [hbody, List.foldl_append, List.foldl_cons]
    rfl

/-- Calls are invoked one after the other, each with the same routines active. -/
theorem foldl_invoke_eq {routines : Routines} {active : List String}
    {nested : String → UInt32 → List (Event Call)}
    (h : ∀ name offset (u : State), u.active = active →
      routines name offset u = (nested name offset).foldl State.apply u)
    (at' : Call → UInt32) (calls : List Call) {s : State} (hs : s.active = active) :
    calls.foldl (fun s c => invoke v routines c (at' c) s) s =
      (calls.flatMap fun c => callEvents v nested c (at' c)).foldl State.apply s := by
  induction calls generalizing s with
  | nil => rfl
  | cons c rest ih =>
    have hcall : invoke v routines c (at' c) s =
        (callEvents v nested c (at' c)).foldl State.apply s := by
      unfold invoke callEvents
      cases v.operation? c.target with
      | none => exact h _ _ s hs
      | some op => cases op <;> rfl
    rw [List.foldl_cons, hcall, List.flatMap_cons, List.foldl_append]
    exact ih (by rw [foldl_apply_active, hs])

theorem runRoutine_eq (routines : List Declaration) (depth : Nat) (name : String)
    (reported : Option UInt32) (s : State) :
    runRoutine v routines depth name reported s =
      (events v routines depth s.active name reported).foldl State.apply s := by
  induction depth generalizing name reported s with
  | zero => rfl
  | succ depth ih =>
    unfold runRoutine events
    cases find? routines name with
    | none => rfl
    | some d =>
      cases hbody : d.body with
      | none => simp only [hbody]; rfl
      | some body =>
        simp only [hbody]
        by_cases hactive : name ∈ s.active
        · simp [hactive]
        · simp only [hactive, if_false]
          rw [inScope_eq d.attributes fun u hu => ?_, leave_foldl_enter _ s hactive]
          rw [run_eq]
          -- callees run with the same routines active, whatever the calls before them did
          refine foldl_invoke_eq (fun callee offset w hw => ?_) _ _ hu
          rw [ih, hw]
          rfl

/-- A routine leaves those active that were. -/
theorem runRoutine_active (routines : List Declaration) (depth : Nat) (name : String)
    (reported : Option UInt32) (s : State) :
    (runRoutine v routines depth name reported s).active = s.active := by
  rw [runRoutine_eq, foldl_apply_active]

end Runs

end Replay

end AmbientScope
