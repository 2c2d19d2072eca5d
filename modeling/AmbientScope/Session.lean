import AmbientScope.Flow.Detection

/-!
# Sessions

Requests of several workers over one graph and one cache. Each worker has marks of its own and obeys one
cancellation token; a token that is set stays set. A request that fails leaves the cache alone, but a
worker that was stopped half way keeps its mark.
-/

set_option autoImplicit false

namespace AmbientScope

structure Worker where
  token : Nat
  marks : List RoutineId := []
  deriving Inhabited

structure Session where
  graph : CallGraph
  rules : Rules
  cache : SummaryCache := FirstWrite.empty
  workers : List Worker
  /-- Which tokens are set. -/
  tokens : List Bool
  deriving Inhabited

/-- What can be asked of a session; routines are given by position. -/
inductive Request where
  | summarize (worker : Nat) (routine : RoutineId)
  | check (worker : Nat) (routine : RoutineId)
  | state (worker : Nat) (routine : RoutineId)
  | cached (routine : RoutineId)
  | publish (routine : RoutineId) (summary : Summary)
  | cancel (token : Nat)
  | checkCancelled (worker : Nat)

inductive Response where
  | summary (s : Summary)
  | report (r : Report)
  | state (s : VisitState)
  | cached (s : Option Summary)
  | tokens (ts : List Bool)
  | proceed
  | failure (f : Failure)

namespace Session

/-- A session with one worker for each of the given tokens. -/
def start (g : CallGraph) (rules : Rules) (tokens : List Nat) : Session where
  graph := g
  rules := rules
  workers := tokens.map fun t => ⟨t, []⟩
  tokens := List.replicate (tokens.foldl max 0 + 1) false

def worker (s : Session) (i : Nat) : Worker := s.workers[i]?.getD default

/-- Whether the token of a worker is set. -/
def isCancelled (s : Session) (i : Nat) : Bool := s.tokens[(s.worker i).token]?.getD false

/-- What a worker sees. -/
def view (s : Session) (i : Nat) : View := ⟨s.cache, (s.worker i).marks⟩

/-- The session after a worker has changed what it sees. -/
def withView (s : Session) (i : Nat) (v : View) : Session :=
  { s with
    cache := v.cache
    workers := s.workers.set i { s.worker i with marks := v.marks } }

@[simp] theorem withView_graph (s : Session) (i : Nat) (v : View) :
    (s.withView i v).graph = s.graph := rfl

@[simp] theorem withView_cache (s : Session) (i : Nat) (v : View) :
    (s.withView i v).cache = v.cache := rfl

/-- A worker keeps its token; only the one that made the request may have other marks. -/
theorem worker_withView (s : Session) (i j : Nat) (v : View) :
    (s.withView i v).worker j =
      if j = i ∧ i < s.workers.length then ⟨(s.worker i).token, v.marks⟩ else s.worker j := by
  unfold worker withView
  rw [List.getElem?_set]
  by_cases hj : i = j
  · subst hj
    by_cases hi : i < s.workers.length <;> simp [hi, worker]
  · simp [hj, Ne.symm hj]

@[simp] theorem isCancelled_withView (s : Session) (i j : Nat) (v : View) :
    (s.withView i v).isCancelled j = s.isCancelled j := by
  unfold isCancelled
  rw [worker_withView]
  split
  · rename_i h
    rw [h.1]
    rfl
  · rfl

def perform (s : Session) : Request → Response × Session
  | .summarize i id =>
    match summarize s.graph (s.isCancelled i) (s.view i) id with
    | (.ok summary, v) => (.summary summary, s.withView i v)
    | (.error f, v) => (.failure f, s.withView i v)
  | .check i id =>
    match check s.graph s.rules (s.isCancelled i) (s.view i) id with
    | (.ok report, v) => (.report report, s.withView i v)
    | (.error f, v) => (.failure f, s.withView i v)
  | .state i id => (.state ((s.view i).state id), s)
  | .cached id => (.cached (s.cache.get? id), s)
  | .publish id summary =>
    let (kept, cache) := s.cache.publish id summary
    (.summary kept, { s with cache := cache })
  | .cancel token =>
    let s := { s with tokens := s.tokens.set token true }
    (.tokens s.tokens, s)
  | .checkCancelled i => (if s.isCancelled i then .failure .cancelled else .proceed, s)

theorem perform_summarize (s : Session) (i : Nat) (id : RoutineId) :
    (s.perform (.summarize i id)).2 =
      s.withView i (summarize s.graph (s.isCancelled i) (s.view i) id).2 := by
  rcases h : summarize s.graph (s.isCancelled i) (s.view i) id with ⟨result | result, v⟩ <;>
    simp [perform, h]

theorem perform_check (s : Session) (i : Nat) (id : RoutineId) :
    (s.perform (.check i id)).2 =
      s.withView i (check s.graph s.rules (s.isCancelled i) (s.view i) id).2 := by
  rcases h : check s.graph s.rules (s.isCancelled i) (s.view i) id with ⟨result | result, v⟩ <;>
    simp [perform, h]

theorem perform_graph (s : Session) (q : Request) : (s.perform q).2.graph = s.graph := by
  cases q with
  | summarize i id => rw [perform_summarize, withView_graph]
  | check i id => rw [perform_check, withView_graph]
  | _ => rfl

/-- All responses to a list of requests, and the session afterwards. -/
def performAll (s : Session) : List Request → List Response × Session
  | [] => ([], s)
  | q :: rest =>
    let (a, s) := s.perform q
    let (as, s) := performAll s rest
    (a :: as, s)

theorem performAll_graph (s : Session) (requests : List Request) :
    (s.performAll requests).2.graph = s.graph := by
  induction requests generalizing s with
  | nil => rfl
  | cons q rest ih => exact (ih _).trans (perform_graph s q)

end Session

end AmbientScope
