import AmbientScope.Flow.Effect

/-!
# Walks

Computing summaries with an explicit stack of suspended routines. Each routine that is started gets a mark, which
it keeps until its summary is published. A call of a routine with a mark contributes nothing: this is where
recursion is cut. The cache may be shared, the marks belong to one worker.

A walk takes one step at a time: it scans one site of the innermost routine, or finishes that routine and
splices its summary into the routine that waits for it.
-/

set_option autoImplicit false

namespace AmbientScope

/-- What a worker sees: the cache, and its own marks on routines in progress. -/
structure View where
  cache : SummaryCache := FirstWrite.empty
  marks : List RoutineId := []
  deriving Inhabited

inductive VisitState where
  | unvisited | inProgress | done
  deriving DecidableEq, Inhabited

namespace View

def state (v : View) (id : RoutineId) : VisitState :=
  if v.cache.contains id then .done
  else if id ∈ v.marks then .inProgress
  else .unvisited

def mark (v : View) (id : RoutineId) : View :=
  if id ∈ v.marks then v else { v with marks := id :: v.marks }

def unmark (v : View) (id : RoutineId) : View := { v with marks := v.marks.filter (· ≠ id) }

theorem state_of_cached {v : View} {id : RoutineId} {s : Summary} (h : v.cache.get? id = some s) :
    v.state id = .done := by
  simp [state, FirstWrite.contains, h]

theorem state_of_marked {v : View} {id : RoutineId} (h : v.cache.get? id = none)
    (hm : id ∈ v.marks) : v.state id = .inProgress := by
  simp [state, FirstWrite.contains, h, hm]

theorem state_eq_unvisited_iff {v : View} {id : RoutineId} :
    v.state id = .unvisited ↔ v.cache.get? id = none ∧ id ∉ v.marks := by
  unfold state FirstWrite.contains
  cases h : v.cache.get? id <;> by_cases hm : id ∈ v.marks <;> simp [hm]

@[simp] theorem mark_cache (v : View) (id : RoutineId) : (v.mark id).cache = v.cache := by
  unfold mark
  split <;> rfl

@[simp] theorem unmark_cache (v : View) (id : RoutineId) : (v.unmark id).cache = v.cache := rfl

theorem mark_of_not_mem {v : View} {id : RoutineId} (h : id ∉ v.marks) :
    v.mark id = ⟨v.cache, id :: v.marks⟩ := by
  simp [mark, h]

@[simp] theorem mem_mark {v : View} {id q : RoutineId} :
    q ∈ (v.mark id).marks ↔ q = id ∨ q ∈ v.marks := by
  unfold mark
  split
  · exact ⟨Or.inr, fun h => h.elim (fun he => he ▸ by assumption) fun hq => hq⟩
  · simp

@[simp] theorem mem_unmark {v : View} {id q : RoutineId} :
    q ∈ (v.unmark id).marks ↔ q ∈ v.marks ∧ q ≠ id := by
  simp [unmark]

/-- A mark that was not there before leaves no trace once it is taken away. -/
theorem unmark_mark_marks {v : View} {id : RoutineId} (h : id ∉ v.marks) :
    ((v.mark id).unmark id).marks = v.marks := by
  rw [mark_of_not_mem h]
  have hkeep : v.marks.filter (· ≠ id) = v.marks := by
    apply List.filter_eq_self.mpr
    intro q hq
    simpa using fun he : q = id => h (he ▸ hq)
  simpa [unmark] using hkeep

end View

/-- A routine whose sites have been scanned up to a point. -/
structure Task where
  routine : RoutineId
  next : Nat := 0
  effects : List Effect := []
  deriving Inhabited

namespace Task

def site? (t : Task) (g : CallGraph) : Option Site := (g.sites t.routine)[t.next]?

/-- Whether the site scanned last is hidden. -/
def lastHidden (t : Task) (g : CallGraph) : Bool :=
  (((g.sites t.routine)[t.next - 1]?).map Site.hidden).getD false

def advance (t : Task) : Task := { t with next := t.next + 1 }

def add (t : Task) (s : Summary) : Task := { t with effects := t.effects ++ s }

end Task

/-- A summarization under way; the innermost task is in front. -/
structure Walk where
  view : View
  stack : List Task
  deriving Inhabited

namespace Walk

inductive Progress where
  | running (w : Walk)
  | finished (summary : Summary) (view : View)

/-- Start a routine on top of those that wait. -/
def start (v : View) (id : RoutineId) (outer : List Task) : Walk := ⟨v.mark id, ⟨id, 0, []⟩ :: outer⟩

/-- Publish the summary of the innermost routine and hand it to the routine that waits for it. -/
def finish (g : CallGraph) (v : View) (t : Task) (outer : List Task) : Progress :=
  let v := v.unmark t.routine
  let (summary, cache) := v.cache.publish t.routine (Summary.bounded g t.routine t.effects)
  let v := { v with cache := cache }
  match outer with
  | [] => .finished summary v
  | parent :: rest => .running ⟨v, parent.add (summary.splice (parent.lastHidden g)) :: rest⟩

def scan (v : View) (t : Task) (outer : List Task) (s : Site) : Walk :=
  match s.kind with
  | .direct action => ⟨v, t.advance.add [s.effect t.routine action] :: outer⟩
  | .inert _ => ⟨v, t.advance :: outer⟩
  | .external => ⟨v, t.advance :: outer⟩
  | .call callee =>
    match v.state callee with
    | .done => ⟨v, t.advance.add (((v.cache.get? callee).getD []).splice s.hidden) :: outer⟩
    | .inProgress => ⟨v, t.advance :: outer⟩
    | .unvisited => start v callee (t.advance :: outer)

def step (g : CallGraph) (w : Walk) : Progress :=
  match w.stack with
  | [] => .finished [] w.view
  | t :: outer =>
    match t.site? g with
    | none => finish g w.view t outer
    | some s => .running (scan w.view t outer s)

def run (g : CallGraph) : (steps : Nat) → Walk → Summary × View
  | 0, w => ([], w.view)
  | steps + 1, w =>
    match w.step g with
    | .finished s v => (s, v)
    | .running w => run g steps w

/-- Steps enough for any walk: no site is scanned twice, and every routine but the first one is started by a
scan and finishes once. -/
def bound (g : CallGraph) : Nat := g.routines.foldr (fun r steps => 2 * r.sites.length + steps) 1

end Walk

/-- The summary of a routine, and what the worker sees afterwards. A summary in the cache is answered even when
the worker is cancelled; otherwise a cancelled worker stops where it has marked the routine. -/
def summarize (g : CallGraph) (cancelled : Bool) (v : View) (root : RoutineId) :
    Except Failure Summary × View :=
  match v.cache.get? root with
  | some s => (.ok s, v)
  | none =>
    if cancelled then (.error .cancelled, v.mark root)
    else
      let (s, v) := Walk.run g (Walk.bound g) (Walk.start v root [])
      (.ok s, v)

def summarizeAlone (g : CallGraph) (cancelled : Bool) (root : RoutineId) : Except Failure Summary :=
  (summarize g cancelled {} root).1

end AmbientScope
