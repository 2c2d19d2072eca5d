import AmbientScope.CallGraph.Lowering
import Mathlib.Data.List.Basic
import Mathlib.Data.List.Induction

/-!
# Calls by their paths

A node of a body is found by a path, which takes one of the parts at each step. Lowering makes one site for each node
that is a call. The sites come in the order of the paths: those below a node follow it, and those in one part of it
stand before those in the next part.
-/

set_option autoImplicit false

namespace AmbientScope

namespace Operation

def call? : Operation → Option Call
  | invocation c _ => some c
  | _ => none

def at? : Operation → List Nat → Option Operation
  | op, [] => some op
  | op, i :: path => op.parts[i]?.bind (·.at? path)

/-- A control construct stands above the end of the path. -/
def Covers (op : Operation) (path : List Nat) : Prop :=
  ∃ above outer, above <+: path ∧ above ≠ path ∧ op.at? above = some outer ∧ outer.isControl = true

theorem call?_eq_some_iff {op : Operation} {c : Call} :
    op.call? = some c ↔ ∃ arguments, op = .invocation c arguments := by
  cases op <;> simp [call?]

/-- The calls of an operation are its own one, if it is a call, and then those of its parts. -/
theorem calls_eq (hidden : Bool) (op : Operation) :
    op.calls hidden = (op.call?.map fun c => (c, hidden)).toList ++
      op.parts.flatMap (·.calls (hidden || op.isControl)) := by
  cases op <;>
    simp [calls, call?, parts, isControl, listCalls_eq_flatMap, optionCalls_eq_flatMap]

/-- The call at a path, and whether it is hidden. -/
def visit? : Operation → List Nat → Bool → Option (Call × Bool)
  | op, [], hidden => op.call?.map fun c => (c, hidden)
  | op, i :: path, hidden => op.parts[i]?.bind (·.visit? path (hidden || op.isControl))

theorem covers_cons {op part : Operation} {i : Nat} {path : List Nat}
    (hpart : op.parts[i]? = some part) :
    op.Covers (i :: path) ↔ op.isControl = true ∨ part.Covers path := by
  constructor
  · rintro ⟨above, outer, hprefix, hne, hat, hcontrol⟩
    cases above with
    | nil =>
      obtain rfl := Option.some.inj hat
      exact Or.inl hcontrol
    | cons j above =>
      obtain ⟨rfl, hbelow⟩ := List.cons_prefix_cons.mp hprefix
      refine Or.inr ⟨above, outer, hbelow, fun h => hne (h ▸ rfl), ?_, hcontrol⟩
      simpa [at?, hpart] using hat
  · intro h
    rcases h with hcontrol | ⟨above, outer, hprefix, hne, hat, hcontrol⟩
    · exact ⟨[], op, List.nil_prefix, by simp, rfl, hcontrol⟩
    · refine ⟨i :: above, outer, List.cons_prefix_cons.mpr ⟨rfl, hprefix⟩, ?_, ?_, hcontrol⟩
      · intro h
        exact hne (List.cons.inj h).2
      · simpa [at?, hpart] using hat

theorem not_covers_nil (op : Operation) : ¬ op.Covers [] := by
  rintro ⟨above, outer, hprefix, hne, _⟩
  exact hne (List.prefix_nil.mp hprefix)

theorem visit?_eq_some_iff {op : Operation} {path : List Nat} {hidden : Bool} {x : Call × Bool} :
    op.visit? path hidden = some x ↔
      (∃ arguments, op.at? path = some (.invocation x.1 arguments)) ∧
        (x.2 = true ↔ hidden = true ∨ op.Covers path) := by
  obtain ⟨c, flag⟩ := x
  induction path generalizing op hidden with
  | nil =>
    have hflag : hidden = flag ↔ (flag = true ↔ hidden = true ∨ op.Covers []) := by
      simp only [not_covers_nil, or_false]
      cases hidden <;> cases flag <;> simp
    rw [← hflag]
    simp [visit?, at?, call?_eq_some_iff]
  | cons i path ih =>
    cases hpart : op.parts[i]? with
    | none => simp [visit?, at?, hpart]
    | some part =>
      rw [covers_cons hpart]
      simp only [visit?, at?, hpart, Option.bind_some, ih, Bool.or_eq_true, or_assoc]

theorem isSome_visit?_iff {op : Operation} {path : List Nat} {hidden : Bool} :
    (op.visit? path hidden).isSome = true ↔
      ∃ c arguments, op.at? path = some (.invocation c arguments) := by
  induction path generalizing op hidden with
  | nil => cases op <;> simp [visit?, at?, call?]
  | cons i path ih => cases hpart : op.parts[i]? <;> simp [visit?, at?, hpart, ih]

/-- All paths to calls in order, with the calls that they lead to. -/
structure Enumerates (find : List Nat → Bool → Option (Call × Bool))
    (calls : Bool → List (Call × Bool)) (paths : List (List Nat)) : Prop where
  ordered : paths.Pairwise (List.Lex (· < ·))
  complete : ∀ path hidden, (find path hidden).isSome = true → path ∈ paths
  calls : ∀ hidden, paths.map (find · hidden) = (calls hidden).map some

/-- The call at a path that starts at one of several operations. -/
def visitAll? (ops : List Operation) : List Nat → Bool → Option (Call × Bool)
  | [], _ => none
  | i :: path, hidden => ops[i]?.bind (·.visit? path hidden)

theorem Enumerates.isSome {find : List Nat → Bool → Option (Call × Bool)}
    {calls : Bool → List (Call × Bool)} {paths : List (List Nat)} (h : Enumerates find calls paths)
    {path : List Nat} (hpath : path ∈ paths) (hidden : Bool) :
    (find path hidden).isSome = true := by
  have hmem : find path hidden ∈ paths.map (find · hidden) := List.mem_map_of_mem hpath
  rw [h.calls hidden] at hmem
  obtain ⟨x, _, hx⟩ := List.mem_map.mp hmem
  rw [← hx]
  rfl

theorem exists_of_visitAll? {ops : List Operation} {path : List Nat} {hidden : Bool}
    (h : (visitAll? ops path hidden).isSome = true) :
    ∃ i rest part, path = i :: rest ∧ ops[i]? = some part ∧
      (part.visit? rest hidden).isSome = true := by
  cases path with
  | nil => simp [visitAll?] at h
  | cons i rest =>
    cases hpart : ops[i]? with
    | none => simp [visitAll?, hpart] at h
    | some part => exact ⟨i, rest, part, rfl, hpart, by simpa [visitAll?, hpart] using h⟩

theorem Enumerates.concat {ops : List Operation} {op : Operation} {paths below : List (List Nat)}
    (h : Enumerates (visitAll? ops) (fun hidden => ops.flatMap (·.calls hidden)) paths)
    (hop : Enumerates op.visit? (fun hidden => op.calls hidden) below) :
    Enumerates (visitAll? (ops ++ [op])) (fun hidden => (ops ++ [op]).flatMap (·.calls hidden))
      (paths ++ below.map (ops.length :: ·)) := by
  have hfirst : ∀ path ∈ paths, ∃ i rest, path = i :: rest ∧ i < ops.length := by
    intro path hpath
    obtain ⟨i, rest, part, rfl, hpart, _⟩ := exists_of_visitAll? (h.isSome hpath false)
    exact ⟨i, rest, rfl, (List.getElem?_eq_some_iff.mp hpart).1⟩
  constructor
  · refine List.pairwise_append.mpr ⟨h.ordered, ?_, ?_⟩
    · rw [List.pairwise_map]
      exact hop.ordered.imp .cons
    · intro path hpath other hother
      obtain ⟨i, rest, rfl, hlt⟩ := hfirst path hpath
      obtain ⟨rest', _, rfl⟩ := List.mem_map.mp hother
      exact .rel hlt
  · intro path hidden hsome
    obtain ⟨i, rest, part, rfl, hpart, hrest⟩ := exists_of_visitAll? hsome
    rw [List.mem_append]
    rcases Nat.lt_or_ge i ops.length with hlt | hge
    · rw [List.getElem?_append_left hlt] at hpart
      exact Or.inl (h.complete _ hidden (by simpa [visitAll?, hpart] using hrest))
    · have hlt := (List.getElem?_eq_some_iff.mp hpart).1
      obtain rfl : i = ops.length := by
        simp only [List.length_append, List.length_singleton] at hlt
        omega
      obtain rfl : op = part := by simpa using hpart
      exact Or.inr (List.mem_map_of_mem (hop.complete rest hidden hrest))
  · intro hidden
    have hold : paths.map (visitAll? (ops ++ [op]) · hidden) = paths.map (visitAll? ops · hidden) := by
      apply List.map_congr_left
      intro path hpath
      obtain ⟨i, rest, rfl, hlt⟩ := hfirst path hpath
      simp only [visitAll?, List.getElem?_append_left hlt]
    have hnew : (below.map (ops.length :: ·)).map (visitAll? (ops ++ [op]) · hidden) =
        below.map (op.visit? · hidden) := by
      rw [List.map_map]
      apply List.map_congr_left
      intro path _
      simp [visitAll?]
    rw [List.map_append, hold, hnew, h.calls, hop.calls, List.flatMap_append, List.map_append]
    simp

theorem exists_enumerates_all (ops : List Operation)
    (h : ∀ op ∈ ops, ∃ paths, Enumerates op.visit? (fun hidden => op.calls hidden) paths) :
    ∃ paths, Enumerates (visitAll? ops) (fun hidden => ops.flatMap (·.calls hidden)) paths := by
  induction ops using List.reverseRecOn with
  | nil =>
    refine ⟨[], .nil, ?_, fun _ => rfl⟩
    intro path hidden hsome
    obtain ⟨_, _, _, _, hpart, _⟩ := exists_of_visitAll? hsome
    simp at hpart
  | append_singleton ops op ih =>
    obtain ⟨paths, hpaths⟩ := ih fun part hpart => h part (List.mem_append_left _ hpart)
    obtain ⟨below, hbelow⟩ := h op (by simp)
    exact ⟨_, hpaths.concat hbelow⟩

/-- An operation comes before its parts: its own path is a beginning of all others. -/
theorem Enumerates.above {op : Operation} {paths : List (List Nat)}
    (h : Enumerates (visitAll? op.parts) (fun hidden => op.parts.flatMap (·.calls hidden)) paths) :
    Enumerates op.visit? (fun hidden => op.calls hidden)
      ((op.call?.map fun _ => []).toList ++ paths) := by
  have hbelow : ∀ path ∈ paths, path ≠ [] ∧
      ∀ hidden, op.visit? path hidden = visitAll? op.parts path (hidden || op.isControl) := by
    intro path hpath
    obtain ⟨i, rest, part, rfl, _⟩ := exists_of_visitAll? (h.isSome hpath false)
    exact ⟨by simp, fun _ => rfl⟩
  constructor
  · refine List.pairwise_append.mpr ⟨?_, h.ordered, ?_⟩
    · cases op.call? <;> simp
    · intro path hpath other hother
      obtain rfl : path = [] := by
        cases hc : op.call? <;> simp_all
      obtain ⟨i, rest, rfl⟩ := List.exists_cons_of_ne_nil (hbelow other hother).1
      exact .nil
  · intro path hidden hsome
    rw [List.mem_append]
    cases path with
    | nil =>
      cases hc : op.call? with
      | none => simp [visit?, hc] at hsome
      | some c => simp
    | cons i rest => exact Or.inr (h.complete _ _ hsome)
  · intro hidden
    have hparts : paths.map (op.visit? · hidden) =
        paths.map (visitAll? op.parts · (hidden || op.isControl)) :=
      List.map_congr_left fun path hpath => (hbelow path hpath).2 hidden
    rw [calls_eq, List.map_append, List.map_append, hparts, h.calls]
    congr 1
    cases hc : op.call? <;> simp [visit?, hc]

theorem exists_enumerates (op : Operation) :
    ∃ paths, Enumerates op.visit? (fun hidden => op.calls hidden) paths := by
  induction op using Operation.induction with
  | step op ih =>
    obtain ⟨paths, hpaths⟩ := exists_enumerates_all op.parts ih
    exact ⟨_, hpaths.above⟩

theorem map_calls (op : Operation) (hidden : Bool) :
    (op.calls hidden).map (fun x => (x.1, true)) = op.calls true := by
  induction op using Operation.induction generalizing hidden with
  | step op ih =>
    rw [calls_eq hidden, calls_eq true, List.map_append, List.map_flatMap, Bool.true_or]
    congr 1
    · cases op.call? <;> rfl
    · apply List.flatMap_congr
      intro part hpart
      exact ih part hpart _

end Operation

namespace Lowering

/-- What lowering makes of the call at a path, when it is the one with the given number. -/
structure StandsFor (v : Vocabulary) (routines : List Declaration) (op : Operation) (path : List Nat)
    (position : Nat) (x : Site) : Prop where
  call : ∃ c arguments, op.at? path = some (.invocation c arguments) ∧
    x.kind = classify v routines c ∧ x.span = c.span ∧ x.target = c.target.qualified
  index : x.index = position
  hidden : x.hidden = true ↔ ∃ above outer, above <+: path ∧ above ≠ path ∧
    op.at? above = some outer ∧ outer.isControl = true

/-- The sites of a body correspond to the calls in it, arguments and the parts of control constructs included. They come
in the order of the paths of the calls, each with its number, and those below a control construct are hidden. In a place
that is hidden already the same sites come about, all of them hidden. -/
theorem sites_in_program_order (v : Vocabulary) (routines : List Declaration) (op : Operation) :
    ∃ paths : List (List Nat), paths.Pairwise (List.Lex (· < ·)) ∧
      (∀ path, path ∈ paths ↔ ∃ c arguments, op.at? path = some (.invocation c arguments)) ∧
      (sites v routines (some op)).length = paths.length ∧
      (∀ i path, paths[i]? = some path →
        ∃ x, (sites v routines (some op))[i]? = some x ∧ StandsFor v routines op path i x) ∧
      (op.calls true).mapIdx (site v routines) =
        (sites v routines (some op)).map fun x => { x with hidden := true } := by
  obtain ⟨paths, hpaths⟩ := op.exists_enumerates
  have hcalls := hpaths.calls false
  refine ⟨paths, hpaths.ordered, ?_, ?_, ?_, ?_⟩
  · intro path
    rw [← Operation.isSome_visit?_iff]
    exact ⟨fun hmem => hpaths.isSome hmem false, hpaths.complete path false⟩
  · have hlength := congrArg List.length hcalls
    simp only [List.length_map] at hlength
    simp [sites, Operation.optionCalls, hlength]
  · intro i path hi
    have hget := congrArg (·[i]?) hcalls
    simp only [List.getElem?_map, hi, Option.map_some] at hget
    obtain ⟨x, hx, hvisit⟩ := Option.map_eq_some_iff.mp hget.symm
    obtain ⟨⟨arguments, hat⟩, hflag⟩ := Operation.visit?_eq_some_iff.mp hvisit.symm
    refine ⟨site v routines i x, ?_, ⟨x.1, arguments, hat, rfl, rfl, rfl⟩, rfl, ?_⟩
    · simp [sites, Operation.optionCalls, hx]
    · exact hflag.trans (or_iff_right Bool.false_ne_true)
  · rw [← op.map_calls false, sites, Operation.optionCalls]
    apply List.ext_getElem?
    intro i
    simp only [List.getElem?_mapIdx, List.getElem?_map, Option.map_map]
    rfl

end Lowering

end AmbientScope
