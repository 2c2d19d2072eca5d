import AmbientScope.Scope.Binding
import AmbientScope.Scope.Contexts
import AmbientScope.Text.Quoted

/-!
# Scripts

Sequences of commands on contexts, frames and runtimes that are known by names. A name can be given away again; a body
that is run in a scope may do so with the name of its own context, which has it back when the scope is left.
-/

set_option autoImplicit false

namespace AmbientScope

structure FrameInfo where
  label : String
  depth : Nat
  isRoot : Bool
  bindings : Nat
  hasIdentity : Bool
  deriving DecidableEq, Inhabited

namespace FrameInfo

/-- The text shown for a frame. -/
def describe (f : FrameInfo) : String :=
  "ScopeFrame \x7b label: " ++ Quoted.display f.label ++ ", depth: " ++ toString f.depth ++
    ", bindings: " ++ toString f.bindings ++ " \x7d"

/-- The text shown for a context that points at a frame. -/
def describeContext (f : FrameInfo) : String := "ScopeContext \x7b current: " ++ f.describe ++ " \x7d"

end FrameInfo

def Store.info {κ α : Type} (s : Store κ α) (id : FrameId) : FrameInfo :=
  match s.frame? id with
  | none => default
  | some f => ⟨f.label, f.depth, f.parent.isNone, f.bindings.size, f.identity.isSome⟩

namespace Script

/-- A command on the context in a slot, or on slots alone. -/
inductive Command where
  | runtime (slot : String) (label : Option String)
  | isInitialized (runtime : String)
  | context (runtime slot : String)
  | root (runtime slot : String)
  | detached (slot : String)
  | frameInfo (frame : String)
  | identity (frame : String)
  | parent (frame : String) (slot : Option String)
  | ancestors (frame : String)
  | same (first second : String)
  | describeFrame (frame : String)
  | key (key : BindingKey)
  | push (context : String) (label : Option String) (slot : Option String)
  | pop (context : String)
  | current (context slot : String)
  | fork (context slot : String)
  | describe (context : String)
  | provide (context : String) (key : BindingKey) (value : Value)
  | resolve (context : String) (key : BindingKey)
  | resolveValue (context : String) (key : BindingKey)
  | tryResolve (context : String) (key : BindingKey)
  | enter (context label : String) (slot : Option String) (body : List Command)
  deriving Inhabited

inductive Outcome where
  | nothing
  | flag (b : Bool)
  | number (n : Nat)
  | text (s : String)
  | labels (ls : List String)
  | frame (f : Option FrameInfo)
  | key (k : BindingKey)
  | value (v : Option Value)
  | failure (e : ResolveError)
  | body (outcomes : List Outcome)
  /-- The outcome of a command on a context, with the frame it points at afterwards. -/
  | placed (outcome : Outcome) (frame : FrameInfo)
  /-- A command that names an empty slot. -/
  | unbound

structure World where
  scopes : Scopes BindingKey Value := {}
  runtimes : List (String × RuntimeId) := []
  contexts : List (String × ContextId) := []
  frames : List (String × FrameId) := []

/-- Put a value into a slot in place of what it held. -/
def assign {α : Type} (slots : List (String × α)) (slot : String) (a : α) : List (String × α) :=
  (slot, a) :: slots.filter (·.1 ≠ slot)

namespace World

def setFrame (w : World) (slot : String) (id : FrameId) : World :=
  { w with frames := assign w.frames slot id }

def setFrame? (w : World) (slot : Option String) (id : FrameId) : World :=
  match slot with
  | none => w
  | some slot => w.setFrame slot id

def setContext (w : World) (slot : String) (id : ContextId) : World :=
  { w with contexts := assign w.contexts slot id }

/-- Give a command to the scopes. -/
def give (w : World) (q : Scopes.Command BindingKey Value) : Context.Answer Value × World :=
  let (answer, scopes) := w.scopes.perform q
  (answer, { w with scopes := scopes })

/-- The context that a command makes goes into a slot. -/
def make (w : World) (slot : String) (q : Scopes.Command BindingKey Value) : World :=
  (w.give q).2.setContext slot w.scopes.contexts.length

/-- The frame that is answered goes into a slot. -/
def keep (w : World) (slot : Option String) : Context.Answer Value → World
  | .frame id => w.setFrame? slot id
  | _ => w

/-- What a context points at. -/
def infoAt (w : World) (id : ContextId) : FrameInfo :=
  match w.scopes.contexts[id]? with
  | none => default
  | some c => w.scopes.store.info c.current

/-- A command on the frame in a slot. -/
def onFrame (w : World) (slot : String) (f : FrameId → Outcome × World) : Outcome × World :=
  match w.frames.lookup slot with
  | some id => f id
  | none => (.unbound, w)

/-- A command on the context in a slot; the outcome shows where the context points afterwards. -/
def onContext (w : World) (slot : String) (f : ContextId → Outcome × World) : Outcome × World :=
  match w.contexts.lookup slot with
  | none => (.unbound, w)
  | some id =>
    let (outcome, w) := f id
    (.placed outcome (w.infoAt ((w.contexts.lookup slot).getD id)), w)

/-- A command on the runtime in a slot. -/
def onRuntime (w : World) (slot : String) (f : RuntimeId → Outcome × World) : Outcome × World :=
  match w.runtimes.lookup slot with
  | some id => f id
  | none => (.unbound, w)

end World

def resolved : Except ResolveError Value → Outcome
  | .ok v => .value (some v)
  | .error e => .failure e

/-- What is shown of an answer; `found` says what the value found under a key comes to. -/
def shown (s : ValueStore) (found : Option Value → Outcome) : Context.Answer Value → Outcome
  | .flag b => .flag b
  | .number n => .number n
  | .frame id => .frame (some (s.info id))
  | .labels ls => .labels ls
  | .value v => found v
  | .done => .nothing
  | .unknown => .nothing

mutual

def perform (w : World) : Command → Outcome × World
  | .runtime slot label =>
    let made := (w.give (.runtime (label.getD Store.defaultLabel))).2
    (.nothing, { made with runtimes := assign w.runtimes slot w.scopes.runtimes.length })
  | .isInitialized slot => w.onRuntime slot fun id =>
    (.flag ((w.scopes.runtimes[id]?.bind ScopeRuntime.root).isSome), w)
  | .context runtime slot => w.onRuntime runtime fun id => (.nothing, w.make slot (.context id))
  | .root runtime slot => w.onRuntime runtime fun id =>
    let (answer, w) := w.give (.root id)
    (shown w.scopes.store .value answer, w.keep (some slot) answer)
  | .detached slot => (.nothing, w.make slot .detached)
  | .frameInfo slot => w.onFrame slot fun id => (.frame (some (w.scopes.store.info id)), w)
  | .identity slot => w.onFrame slot fun id =>
    let (answer, w) := w.give (.identify id)
    (shown w.scopes.store .value answer, w)
  | .parent frame slot => w.onFrame frame fun id =>
    match w.scopes.store.parent? id with
    | none => (.frame none, w)
    | some p => (.frame (some (w.scopes.store.info p)), w.setFrame? slot p)
  | .ancestors slot => w.onFrame slot fun id =>
    (.labels ((w.scopes.store.ancestors id).map w.scopes.store.label), w)
  | .same first second => w.onFrame first fun a => w.onFrame second fun b => (.flag (a == b), w)
  | .describeFrame slot => w.onFrame slot fun id => (.text (w.scopes.store.info id).describe, w)
  | .key k => (.key k, w)
  | .push slot label frame => w.onContext slot fun id =>
    let (answer, w) := w.give (.on id (.push (label.getD Store.defaultLabel)))
    (.nothing, w.keep frame answer)
  | .pop slot => w.onContext slot fun id => (.nothing, (w.give (.on id .pop)).2)
  | .current slot frame => w.onContext slot fun id =>
    let (answer, w) := w.give (.on id .current)
    (.nothing, w.keep (some frame) answer)
  | .fork slot copy => w.onContext slot fun id => (.nothing, w.make copy (.fork id))
  | .describe slot => w.onContext slot fun id => (.text (w.infoAt id).describeContext, w)
  | .provide slot k v => w.onContext slot fun id =>
    let (answer, w) := w.give (.on id (.provide k v))
    (shown w.scopes.store .value answer, w)
  | .resolve slot k => w.onContext slot fun id =>
    let (answer, w) := w.give (.on id (.resolve k))
    (shown w.scopes.store (fun v => resolved (k.foundTyped v)) answer, w)
  | .resolveValue slot k => w.onContext slot fun id =>
    let (answer, w) := w.give (.on id (.resolve k))
    (shown w.scopes.store (fun v => resolved (k.found v)) answer, w)
  | .tryResolve slot k => w.onContext slot fun id =>
    let (answer, w) := w.give (.on id (.resolve k))
    (shown w.scopes.store (fun v => .value (k.foundTyped v).toOption) answer, w)
  | .enter slot label frame body => w.onContext slot fun id =>
    let (answer, w) := w.give (.on id (.enter label))
    let (outcomes, w) := performAll (w.keep frame answer) body
    (.body outcomes, (w.give (.on id .leave)).2.setContext slot id)

def performAll (w : World) : List Command → List Outcome × World
  | [] => ([], w)
  | c :: rest =>
    let (o, w) := perform w c
    let (os, w) := performAll w rest
    (o :: os, w)

end

def run (script : List Command) : List Outcome := (performAll {} script).1

end Script

end AmbientScope
