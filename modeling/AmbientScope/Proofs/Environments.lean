import AmbientScope.Scope.Contexts
import Mathlib.Logic.Function.Basic

/-!
# Lexical environments

The scopes without frames that are linked: a context is a chain of identities, innermost first and never empty, and one
table says for every identity what it binds. Pushing puts a new identity in front, popping takes the first one off
unless it is the last, a fork has the chain of the context that it was made from, and a guard keeps the chain that
it restores. Frames in a store come to the same, answer by answer.
-/

set_option autoImplicit false

namespace AmbientScope

structure Chain where
  innermost : FrameId
  outer : List FrameId
  deriving DecidableEq

namespace Chain

def toList (c : Chain) : List FrameId := c.innermost :: c.outer

def push (id : FrameId) (c : Chain) : Chain := ⟨id, c.toList⟩

def pop (c : Chain) : Chain :=
  match c.outer with
  | [] => c
  | id :: rest => ⟨id, rest⟩

end Chain

/-- What an identity stands for. -/
structure LocalScope (κ α : Type) where
  label : String
  values : κ → Option α := fun _ => none
  number : Option Nat := none

/-- The scopes of all identities in use, which are the positions. -/
structure ScopeTable (κ α : Type) where
  scopes : List (LocalScope κ α) := []
  numbered : Nat := 0

namespace ScopeTable
variable {κ α : Type}

def make (t : ScopeTable κ α) (label : String) : FrameId × ScopeTable κ α :=
  (t.scopes.length, { t with scopes := t.scopes ++ [{ label := label }] })

def identify (t : ScopeTable κ α) (id : FrameId) : Nat × ScopeTable κ α :=
  match t.scopes[id]? with
  | none => (0, t)
  | some x =>
    match x.number with
    | some n => (n, t)
    | none =>
      let n := t.numbered + 1
      (n, ⟨t.scopes.set id { x with number := some n }, n⟩)

def label (t : ScopeTable κ α) (id : FrameId) : String := ((t.scopes[id]?).map LocalScope.label).getD ""

def value? (t : ScopeTable κ α) (id : FrameId) (key : κ) : Option α :=
  (t.scopes[id]?).bind fun x => x.values key

/-- The value of the first scope on the chain that binds the key. -/
def find? (t : ScopeTable κ α) (c : Chain) (key : κ) : Option α :=
  c.toList.findSome? fun id => t.value? id key

def provide [DecidableEq κ] (t : ScopeTable κ α) (id : FrameId) (key : κ) (value : α) :
    Bool × ScopeTable κ α :=
  match t.scopes[id]? with
  | none => (false, t)
  | some x =>
    match x.values key with
    | some _ => (false, t)
    | none =>
      (true, { t with
        scopes := t.scopes.set id { x with values := Function.update x.values key (some value) } })

end ScopeTable

/-- A context, with what its guards restore, innermost first. -/
structure Environment where
  chain : Chain
  saved : List Chain := []

namespace Environment
variable {κ α : Type} [DecidableEq κ]

def perform (e : Environment) (t : ScopeTable κ α) :
    Context.Command κ α → Context.Answer α × Environment × ScopeTable κ α
  | .push label =>
    let (id, t) := t.make label
    (.frame id, { e with chain := e.chain.push id }, t)
  | .pop => (.done, { e with chain := e.chain.pop }, t)
  | .enter label =>
    let (id, t) := t.make label
    (.frame id, ⟨e.chain.push id, e.chain :: e.saved⟩, t)
  | .leave =>
    match e.saved with
    | [] => (.done, e, t)
    | chain :: rest => (.done, ⟨chain, rest⟩, t)
  | .current => (.frame e.chain.innermost, e, t)
  | .depth => (.number e.chain.outer.length, e, t)
  | .labels => (.labels (e.chain.toList.map t.label), e, t)
  | .provide key value =>
    let (bound, t) := t.provide e.chain.innermost key value
    (.flag bound, e, t)
  | .resolve key => (.value (t.find? e.chain key), e, t)

end Environment

structure Environments (κ α : Type) where
  table : ScopeTable κ α := {}
  runtimes : List ScopeRuntime := []
  environments : List Environment := []

namespace Environments
variable {κ α : Type}

def rootOf (s : Environments κ α) (i : RuntimeId) (r : ScopeRuntime) : FrameId × Environments κ α :=
  match r.root with
  | some id => (id, s)
  | none =>
    let (id, table) := s.table.make r.label
    (id, { s with table := table, runtimes := s.runtimes.set i { r with root := some id } })

def start (s : Environments κ α) (chain : Chain) : Environments κ α :=
  { s with environments := s.environments ++ [⟨chain, []⟩] }

variable [DecidableEq κ]

def perform (s : Environments κ α) : Scopes.Command κ α → Context.Answer α × Environments κ α
  | .runtime label => (.done, { s with runtimes := s.runtimes ++ [⟨label, none⟩] })
  | .root i =>
    match s.runtimes[i]? with
    | none => (.unknown, s)
    | some r =>
      let (id, s) := s.rootOf i r
      (.frame id, s)
  | .context i =>
    match s.runtimes[i]? with
    | none => (.unknown, s)
    | some r =>
      let (id, s) := s.rootOf i r
      (.done, s.start ⟨id, []⟩)
  | .detached =>
    let (id, table) := s.table.make Store.defaultLabel
    (.done, { s with table := table }.start ⟨id, []⟩)
  | .identify id =>
    let (n, table) := s.table.identify id
    (.number n, { s with table := table })
  | .fork i =>
    match s.environments[i]? with
    | none => (.unknown, s)
    | some e => (.done, s.start e.chain)
  | .on i command =>
    match s.environments[i]? with
    | none => (.unknown, s)
    | some e =>
      let (answer, e, table) := e.perform s.table command
      (answer, { s with table := table, environments := s.environments.set i e })

def performAll (s : Environments κ α) :
    List (Scopes.Command κ α) → List (Context.Answer α) × Environments κ α
  | [] => ([], s)
  | q :: rest =>
    let (a, s) := s.perform q
    let (as, s) := performAll s rest
    (a :: as, s)

/-- An identity that a context, a guard or a runtime refers to. -/
def InUse (s : Environments κ α) (id : FrameId) : Prop :=
  (∃ e ∈ s.environments, ∃ c ∈ e.chain :: e.saved, id ∈ c.toList) ∨
    ∃ r ∈ s.runtimes, r.root = some id

/-- A context stays as it is until there is a command on it. -/
theorem getElem?_perform {s : Environments κ α} (q : Scopes.Command κ α) {i : ContextId}
    {e : Environment} (he : s.environments[i]? = some e) :
    (∃ command, q = .on i command) ∨ (s.perform q).2.environments[i]? = some e := by
  have hroot (n : RuntimeId) (r : ScopeRuntime) :
      (s.rootOf n r).2.environments = s.environments := by
    unfold rootOf
    cases r.root <;> rfl
  have hlt := (List.getElem?_eq_some_iff.mp he).1
  cases q with
  | runtime label => exact .inr he
  | root n =>
    cases hr : s.runtimes[n]? <;> simp [perform, hr, hroot, he]
  | context n =>
    cases hr : s.runtimes[n]? <;>
      simp [perform, hr, start, hroot, List.getElem?_append_left hlt, he]
  | detached => simp [perform, start, List.getElem?_append_left hlt, he]
  | identify id => exact .inr he
  | fork n =>
    cases hn : s.environments[n]? <;>
      simp [perform, hn, start, List.getElem?_append_left hlt, he]
  | on n command =>
    rcases eq_or_ne n i with rfl | hne
    · exact .inl ⟨command, rfl⟩
    · cases hn : s.environments[n]? <;> simp [perform, hn, List.getElem?_set_ne hne, he]

end Environments

end AmbientScope
