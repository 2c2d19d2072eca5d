import AmbientScope.FirstWrite
import AmbientScope.Proofs.Positions
import AmbientScope.Text.Interner
import Mathlib.Data.List.Nodup

/-!
# Name indices

A graph can be searched through one table of all its texts. Lowering meets the texts of a routine in the order of its
sites, then the name of the routine and the label of its scope; the index maps the handle of the name to the
routine. The table holds types, keys and labels as well, but their handles lead to no routine.
-/

set_option autoImplicit false

namespace AmbientScope

namespace Interner

def internAll (t : Interner) (names : List String) : Interner :=
  names.foldl (fun t name => (t.intern name).2) t

/-- Handles of the first table mean the same in the second one. -/
def Extends (t t' : Interner) : Prop := ∀ handle name, t.resolve? handle = some name →
  t'.resolve? handle = some name

theorem extends_intern (t : Interner) (name : String) : t.Extends (t.intern name).2 := by
  intro handle old h
  unfold intern
  split
  · exact h
  · exact (List.getElem?_append_left (List.getElem?_eq_some_iff.mp h).1).trans h

theorem extends_internAll (t : Interner) (names : List String) :
    t.Extends (t.internAll names) := by
  induction names generalizing t with
  | nil => exact fun _ _ h => h
  | cons name rest ih =>
    intro handle old h
    exact ih (t.intern name).2 handle old (extends_intern t name handle old h)

theorem resolve?_intern (t : Interner) (name : String) :
    (t.intern name).2.resolve? (t.intern name).1 = some name := by
  unfold intern
  split
  · rename_i h
    have hlt := List.idxOf_lt_length_iff.mpr h
    exact (List.getElem?_eq_getElem hlt).trans (congrArg some (List.getElem_idxOf hlt))
  · simp [resolve?, size]

theorem get?_eq_some_iff {t : Interner} {name : String} {handle : Nat} :
    t.get? name = some handle ↔ t.resolve? handle = some name := by
  rw [get?, resolve?, List.idxOf?_eq_some_iff, List.getElem?_eq_some_iff]
  constructor
  · rintro ⟨hlt, hname, _⟩
    exact ⟨hlt, hname⟩
  · rintro ⟨hlt, hname⟩
    refine ⟨hlt, hname, fun j hj hsame => ?_⟩
    have hij := (List.Nodup.getElem_inj_iff t.distinct).mp (hsame.trans hname.symm)
    omega

end Interner

def ValueKey.names (k : ValueKey) : List String := k.typeName :: k.name.toList

def Action.names : Action → List String
  | .push label => [label]
  | .provide key => key.names
  | .resolve key => key.names

def Site.names (s : Site) : List String :=
  match s.kind with
  | .direct action => action.names ++ [s.target]
  | _ => [s.target]

/-- The texts of a graph, and the routine for each handle of a name; a later entry is in front. -/
structure NameIndex where
  table : Interner := .empty
  ids : List (Nat × RoutineId) := []

namespace NameIndex

def add (x : NameIndex) (r : Routine) : NameIndex :=
  let (handle, table) := (x.table.internAll (r.sites.flatMap Site.names)).intern r.name
  ⟨table.internAll r.markers.boundary.toList, (handle, r.id) :: x.ids⟩

def lookup? (x : NameIndex) (name : String) : Option RoutineId :=
  (x.table.get? name).bind fun handle => x.ids.lookup handle

/-- An entry leads from the handle of the name to the routine. -/
def Leads (x : NameIndex) (e : Nat × RoutineId) (r : Routine) : Prop :=
  x.table.resolve? e.1 = some r.name ∧ e.2 = r.id

/-- The entries are those of the given routines. -/
structure Holds (x : NameIndex) (routines : List Routine) : Prop where
  sound : ∀ e ∈ x.ids, ∃ r ∈ routines, x.Leads e r
  complete : ∀ r ∈ routines, ∃ e ∈ x.ids, x.Leads e r

theorem extends_add (x : NameIndex) (r : Routine) : x.table.Extends (x.add r).table := by
  intro handle name h
  apply Interner.extends_internAll
  apply Interner.extends_intern
  exact Interner.extends_internAll _ _ handle name h

theorem Holds.add {x : NameIndex} {routines : List Routine} (h : x.Holds routines) (r : Routine) :
    (x.add r).Holds (routines ++ [r]) := by
  have hold (e : Nat × RoutineId) (q : Routine) (he : x.Leads e q) : (x.add r).Leads e q :=
    ⟨extends_add x r _ _ he.1, he.2⟩
  have hnew : (x.add r).Leads
      (((x.table.internAll (r.sites.flatMap Site.names)).intern r.name).1, r.id) r :=
    ⟨Interner.extends_internAll _ _ _ _ (Interner.resolve?_intern _ r.name), rfl⟩
  constructor
  · intro e he
    rcases List.mem_cons.mp he with rfl | he
    · exact ⟨r, by simp, hnew⟩
    · obtain ⟨q, hq, hlead⟩ := h.sound e he
      exact ⟨q, List.mem_append_left _ hq, hold e q hlead⟩
  · intro q hq
    rcases List.mem_append.mp hq with hq | hq
    · obtain ⟨e, he, hlead⟩ := h.complete q hq
      exact ⟨e, .tail _ he, hold e q hlead⟩
    · obtain rfl := List.mem_singleton.mp hq
      exact ⟨_, .head _, hnew⟩

theorem holds_empty : Holds {} [] := ⟨by simp, by simp⟩

theorem holds_foldl {x : NameIndex} {earlier : List Routine} (h : x.Holds earlier)
    (routines : List Routine) : (routines.foldl add x).Holds (earlier ++ routines) := by
  induction routines generalizing x earlier with
  | nil => simpa using h
  | cons r rest ih => simpa using ih (h.add r)

end NameIndex

def CallGraph.index (g : CallGraph) : NameIndex := g.routines.foldl .add {}

namespace CallGraph
variable {g : CallGraph} {name : String} {id : RoutineId}

theorem index_holds (g : CallGraph) : g.index.Holds g.routines :=
  NameIndex.holds_foldl NameIndex.holds_empty g.routines

theorem lookup?_eq_some_iff (h : (g.routines.map Routine.name).Nodup) :
    g.lookup? name = some id ↔ ∃ r, g.routine? id = some r ∧ r.name = name := by
  rw [lookup?, List.findIdx?_eq_some_iff_getElem]
  constructor
  · rintro ⟨hlt, hname, _⟩
    exact ⟨g.routines[id], List.getElem?_eq_getElem hlt, by simpa using hname⟩
  · rintro ⟨r, hr, hname⟩
    obtain ⟨hlt, hget⟩ := List.getElem?_eq_some_iff.mp hr
    refine ⟨hlt, by simp [hget, hname], fun j hj hsame => ?_⟩
    have hjlt := Nat.lt_trans hj hlt
    have hnames : (g.routines.map Routine.name)[j]? = (g.routines.map Routine.name)[id]? := by
      simpa [hjlt, hlt, hget, hname] using hsame
    have hij := (List.getElem?_inj (by simpa using hjlt) h).mp hnames
    omega

theorem eq_of_lookup?_index (hg : g.Indexed) (h : g.index.lookup? name = some id) :
    ∃ r, g.routine? id = some r ∧ r.name = name := by
  obtain ⟨handle, hget, hlookup⟩ := Option.bind_eq_some_iff.mp h
  obtain ⟨before, after, hids, _⟩ := List.lookup_eq_some_iff.mp hlookup
  obtain ⟨r, hr, hname, hid⟩ := g.index_holds.sound (handle, id) (by simp [hids])
  obtain ⟨i, hi⟩ := List.getElem?_of_mem hr
  have hposition : i = id := (hg.routine i r hi).symm.trans hid.symm
  have hsame := Option.some.inj (hname.symm.trans (Interner.get?_eq_some_iff.mp hget))
  exact ⟨r, hposition ▸ hi, hsame⟩

/-- Searching through the table finds the routine of a name, and nothing for any other text in it. -/
theorem lookup?_index (hg : g.Indexed) (h : (g.routines.map Routine.name).Nodup) (name : String) :
    g.index.lookup? name = g.lookup? name := by
  apply Option.ext
  intro id
  rw [lookup?_eq_some_iff h]
  refine ⟨eq_of_lookup?_index hg, ?_⟩
  rintro ⟨r, hr, rfl⟩
  obtain ⟨e, he, hname, _⟩ := g.index_holds.complete r (List.mem_of_getElem? hr)
  have hsome : (g.index.ids.lookup e.1).isSome = true := by
    apply Option.isSome_iff_ne_none.mpr
    intro hnone
    exact FirstWrite.lookup_eq_none_iff.mp hnone (List.mem_map_of_mem he)
  obtain ⟨other, hother⟩ := Option.isSome_iff_exists.mp hsome
  have hfound : g.index.lookup? r.name = some other := by
    rw [NameIndex.lookup?, Interner.get?_eq_some_iff.mpr hname]
    exact hother
  -- names are distinct, so the entry that is found is the one of this routine
  obtain ⟨q, hq, hsame⟩ := eq_of_lookup?_index hg hfound
  have hleft := (lookup?_eq_some_iff h).mpr ⟨q, hq, hsame⟩
  have hright := (lookup?_eq_some_iff h).mpr ⟨r, hr, rfl⟩
  rw [hfound, ← hleft, hright]

end CallGraph

end AmbientScope
