import AmbientScope.Scope.Store

/-!
# Contexts

All contexts over one store, known by the order in which they were made. A context points at a frame and holds the
guards of the scopes that it has entered and not left yet. A command on a context can change the store and this
context, and nothing else; forking makes another one that points at the same frame and has no guards.
-/

set_option autoImplicit false

namespace AmbientScope

abbrev ContextId := Nat

abbrev RuntimeId := Nat

/-- A runtime makes its root frame when it is first needed, and all its contexts start there. -/
structure ScopeRuntime where
  label : String
  root : Option FrameId := none
  deriving Inhabited

structure Context where
  current : FrameId
  /-- The frames of the guards, innermost first. -/
  guards : List FrameId := []
  deriving Inhabited

namespace Context
variable {κ α : Type}

inductive Command (κ α : Type) where
  | push (label : String)
  | pop
  | enter (label : String)
  /-- Drop the innermost guard: point at the frame that encloses its frame, wherever the context is by now. -/
  | leave
  | current
  | depth
  | labels
  | provide (key : κ) (value : α)
  | resolve (key : κ)

inductive Answer (α : Type) where
  | done
  | flag (bound : Bool)
  | number (n : Nat)
  | frame (id : FrameId)
  | labels (ls : List String)
  | value (v : Option α)
  /-- There is no such context or runtime. -/
  | unknown
  deriving DecidableEq

variable [DecidableEq κ]

def perform (c : Context) (store : Store κ α) : Command κ α → Answer α × Context × Store κ α
  | .push label =>
    let (id, store) := store.push c.current label
    (.frame id, { c with current := id }, store)
  | .pop => (.done, { c with current := store.pop c.current }, store)
  | .enter label =>
    let (id, store) := store.push c.current label
    (.frame id, ⟨id, id :: c.guards⟩, store)
  | .leave =>
    match c.guards with
    | [] => (.done, c, store)
    | frame :: rest => (.done, ⟨(store.parent? frame).getD c.current, rest⟩, store)
  | .current => (.frame c.current, c, store)
  | .depth => (.number (store.depth c.current), c, store)
  | .labels => (.labels ((store.ancestors c.current).map store.label), c, store)
  | .provide key value =>
    let (bound, store) := store.provide c.current key value
    (.flag bound, c, store)
  | .resolve key => (.value (store.resolve? c.current key), c, store)

end Context

structure Scopes (κ α : Type) where
  store : Store κ α := Store.empty
  runtimes : List ScopeRuntime := []
  contexts : List Context := []

namespace Scopes
variable {κ α : Type}

inductive Command (κ α : Type) where
  | runtime (label : String)
  | root (runtime : RuntimeId)
  | context (runtime : RuntimeId)
  | detached
  | identify (frame : FrameId)
  | fork (context : ContextId)
  | on (context : ContextId) (command : Context.Command κ α)

/-- The root of a runtime, made now if there is none. -/
def rootOf (s : Scopes κ α) (i : RuntimeId) (r : ScopeRuntime) : FrameId × Scopes κ α :=
  match r.root with
  | some id => (id, s)
  | none =>
    let (id, store) := s.store.root r.label
    (id, { s with store := store, runtimes := s.runtimes.set i { r with root := some id } })

/-- One more context, which points at the given frame. -/
def start (s : Scopes κ α) (frame : FrameId) : Scopes κ α :=
  { s with contexts := s.contexts ++ [⟨frame, []⟩] }

variable [DecidableEq κ]

def perform (s : Scopes κ α) : Command κ α → Context.Answer α × Scopes κ α
  | .runtime label => (.done, { s with runtimes := s.runtimes ++ [⟨label, none⟩] })
  | .root i =>
    match s.runtimes[i]? with
    | none => (.unknown, s)
    | some r =>
      let (id, s) := s.rootOf i r
      (.frame id, s)
  | .context i =>
    match s.runtimes[i]? with
    | none => (.unknown, s)
    | some r =>
      let (id, s) := s.rootOf i r
      (.done, s.start id)
  | .detached =>
    let (id, store) := s.store.root Store.defaultLabel
    (.done, { s with store := store }.start id)
  | .identify frame =>
    let (n, store) := s.store.identify frame
    (.number n, { s with store := store })
  | .fork i =>
    match s.contexts[i]? with
    | none => (.unknown, s)
    | some c => (.done, s.start c.current)
  | .on i command =>
    match s.contexts[i]? with
    | none => (.unknown, s)
    | some c =>
      let (answer, c, store) := c.perform s.store command
      (answer, { s with store := store, contexts := s.contexts.set i c })

/-- All answers to a list of commands, and what there is afterwards. -/
def performAll (s : Scopes κ α) : List (Command κ α) → List (Context.Answer α) × Scopes κ α
  | [] => ([], s)
  | q :: rest =>
    let (a, s) := s.perform q
    let (as, s) := performAll s rest
    (a :: as, s)

end Scopes

end AmbientScope
