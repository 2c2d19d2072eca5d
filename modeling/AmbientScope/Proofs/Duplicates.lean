import AmbientScope.Proofs.Contributions
import AmbientScope.Proofs.Positions
import Mathlib.Data.List.Forall2
import Mathlib.Data.List.Induction

/-!
# Duplicate provides

A check replays a stream of effects, each with the site that contributed it. An effect is reported as a duplicate
exactly if it provides a key for sure, an earlier effect of the stream does so too, and no push stands between
them. The related diagnostic points at the latest of these earlier effects.
-/

set_option autoImplicit false

namespace AmbientScope

namespace Detection

/-- The effects that a check replays, each with its site. -/
def stream (all : List (Site × List Effect)) : List (Site × Effect) :=
  all.flatMap fun c => c.2.map fun e => (c.1, e)

/-- The effect provides the key, and nothing passes it by. -/
def Provides (x : Site × Effect) (key : ValueKey) : Prop :=
  x.2.action = .provide key ∧ x.2.hidden = false

def Pushes (x : Site × Effect) : Prop := ∃ label, x.2.action = .push label

/-- Both positions of the stream provide one key, and nothing between them pushes. -/
def Collides (es : List (Site × Effect)) (i j : Nat) : Prop :=
  i < j ∧ ∃ a b key, es[i]? = some a ∧ es[j]? = some b ∧ Provides a key ∧ Provides b key ∧
    ∀ k c, i < k → k < j → es[k]? = some c → ¬ Pushes c

/-- The diagnostic for a position of the stream that collides with an earlier one. -/
def Reported (r : Routine) (es : List (Site × Effect)) (j : Nat) (d : Diagnostic) : Prop :=
  ∃ i a b key, Collides es i j ∧ (∀ i', Collides es i' j → i' ≤ i) ∧
    es[i]? = some a ∧ es[j]? = some b ∧ Provides b key ∧ a.1.index ≤ b.1.index ∧
    d = { code := 9001, severity := .error, message := Template.alreadyProvided.fill [key.describe],
          file := r.file, span := some b.1.span,
          related := [{ code := 9003, severity := .message,
                        message := Template.previousProvide.fill [key.describe],
                        file := r.file, span := some a.1.span }] }

def entry (x : Site × Effect) : TraceEntry := ⟨x.2, x.1.index⟩

def traceOf (es : List (Site × Effect)) : Trace := (es.map entry).reverse

theorem record_eq_traceOf (t : Trace) (s : Site) (effects : List Effect) :
    t.record s effects = traceOf (effects.map fun e => (s, e)) ++ t := by
  simp [Trace.record, traceOf, Function.comp_def, entry]

theorem traceOf_concat (es : List (Site × Effect)) (x : Site × Effect) :
    traceOf (es ++ [x]) = entry x :: traceOf es := by
  simp [traceOf]

section Backwards
variable {e : TraceEntry} {key : ValueKey}

theorem previousProvide?_push (t : Trace) (h : e.isPush = true) :
    Trace.previousProvide? (e :: t) key = none := by
  simp [Trace.previousProvide?, h]

theorem previousProvide?_provides (t : Trace) (hpush : e.isPush = false)
    (h : e.provides key = true) : Trace.previousProvide? (e :: t) key = some e.site := by
  simp [Trace.previousProvide?, hpush, h]

theorem previousProvide?_other (t : Trace) (hpush : e.isPush = false)
    (h : e.provides key = false) :
    Trace.previousProvide? (e :: t) key = Trace.previousProvide? t key := by
  simp [Trace.previousProvide?, hpush, h]

end Backwards

theorem isPush_iff {x : Site × Effect} : (entry x).isPush = true ↔ Pushes x := by
  unfold entry TraceEntry.isPush Pushes
  cases x.2.action <;> simp [Action.isPush]

theorem provides_iff {x : Site × Effect} {key : ValueKey} :
    (entry x).provides key = true ↔ Provides x key := by
  unfold entry TraceEntry.provides Provides
  cases x.2.action <;> simp [Action.provided?, and_comm]

theorem Provides.not_pushes {x : Site × Effect} {key : ValueKey} (h : Provides x key) :
    ¬ Pushes x := by
  rintro ⟨label, hlabel⟩
  rw [h.1] at hlabel
  simp at hlabel

theorem Provides.key_unique {x : Site × Effect} {key key' : ValueKey} (h : Provides x key)
    (h' : Provides x key') : key = key' := by
  have haction := h.1.symm.trans h'.1
  simpa using haction

/-- A provide of the key that no push follows. -/
def Open (es : List (Site × Effect)) (key : ValueKey) (i : Nat) (a : Site × Effect) : Prop :=
  es[i]? = some a ∧ Provides a key ∧ ∀ k c, i < k → es[k]? = some c → ¬ Pushes c

theorem getElem?_concat {α : Type} {xs : List α} {x y : α} {i : Nat} :
    (xs ++ [x])[i]? = some y ↔ xs[i]? = some y ∨ i = xs.length ∧ x = y := by
  rcases Nat.lt_trichotomy i xs.length with h | rfl | h
  · rw [List.getElem?_append_left h]
    simp [Nat.ne_of_lt h]
  · simp
  · have hlong : (xs ++ [x]).length ≤ i := by simpa using Nat.succ_le_of_lt h
    rw [List.getElem?_eq_none hlong, List.getElem?_eq_none (Nat.le_of_lt h)]
    simp [Nat.ne_of_gt h]

theorem open_concat {es : List (Site × Effect)} {x a : Site × Effect} {key : ValueKey} {i : Nat} :
    Open (es ++ [x]) key i a ↔
      i = es.length ∧ x = a ∧ Provides x key ∨ ¬ Pushes x ∧ Open es key i a := by
  constructor
  · rintro ⟨hget, hprov, hall⟩
    rcases getElem?_concat.mp hget with h | ⟨rfl, rfl⟩
    · refine .inr ⟨hall _ x (List.getElem?_eq_some_iff.mp h).1 List.getElem?_concat_length, h, hprov, ?_⟩
      exact fun k c hk hc => hall k c hk (getElem?_concat.mpr (.inl hc))
    · exact .inl ⟨rfl, rfl, hprov⟩
  · rintro (⟨rfl, rfl, hprov⟩ | ⟨hx, hget, hprov, hall⟩)
    · refine ⟨List.getElem?_concat_length, hprov, fun k c hk hc => ?_⟩
      have hlt := (List.getElem?_eq_some_iff.mp hc).1
      simp only [List.length_append, List.length_singleton] at hlt
      omega
    · refine ⟨getElem?_concat.mpr (.inl hget), hprov, fun k c hk hc => ?_⟩
      rcases getElem?_concat.mp hc with hc | ⟨_, rfl⟩
      · exact hall k c hk hc
      · exact hx

/-- Looking back finds the latest open provide. -/
theorem previousProvide?_traceOf (es : List (Site × Effect)) (key : ValueKey) :
    match (traceOf es).previousProvide? key with
    | none => ∀ i a, ¬ Open es key i a
    | some n => ∃ i a, Open es key i a ∧ a.1.index = n ∧ ∀ i' a', Open es key i' a' → i' ≤ i := by
  induction es using List.reverseRecOn with
  | nil =>
    intro i a h
    simpa using h.1
  | append_singleton es x ih =>
    rw [traceOf_concat]
    by_cases hpush : Pushes x
    · rw [previousProvide?_push _ (isPush_iff.mpr hpush)]
      intro i a h
      rcases open_concat.mp h with ⟨_, _, hprov⟩ | ⟨hx, _⟩
      · exact hprov.not_pushes hpush
      · exact hx hpush
    · have hflag := Bool.eq_false_iff.mpr fun h => hpush (isPush_iff.mp h)
      by_cases hprov : Provides x key
      · rw [previousProvide?_provides _ hflag (provides_iff.mpr hprov)]
        refine ⟨es.length, x, open_concat.mpr (.inl ⟨rfl, rfl, hprov⟩), rfl, fun i a h => ?_⟩
        rcases open_concat.mp h with ⟨rfl, _⟩ | ⟨_, h⟩
        · exact Nat.le_refl _
        · exact Nat.le_of_lt (List.getElem?_eq_some_iff.mp h.1).1
      · have hother := Bool.eq_false_iff.mpr fun h => hprov (provides_iff.mp h)
        rw [previousProvide?_other _ hflag hother]
        have hopen : ∀ i a, Open (es ++ [x]) key i a ↔ Open es key i a := by
          intro i a
          rw [open_concat]
          simp [hprov, hpush]
        simpa only [hopen] using ih

/-- The duplicate that an effect makes itself reported as. -/
def collision? (r : Routine) (t : Trace) (x : Site × Effect) : Option Diagnostic :=
  if x.2.hidden then none
  else x.2.action.provided?.bind fun key => (t.previousProvide? key).map (duplicate r x.1 key)

def collisions (r : Routine) (t : Trace) : List (Site × Effect) → Report
  | [] => []
  | x :: rest => (collision? r t x).toList ++ collisions r (entry x :: t) rest

theorem collisions_append (r : Routine) (t : Trace) (xs ys : List (Site × Effect)) :
    collisions r t (xs ++ ys) = collisions r t xs ++ collisions r (traceOf xs ++ t) ys := by
  induction xs generalizing t with
  | nil => rfl
  | cons x rest ih => simp [collisions, ih, traceOf]

section Filter
variable (rules : Rules) (r : Routine) (s : Site) (t : Trace)

theorem duplicate_code (key : ValueKey) (previous : Nat) :
    (duplicate r s key previous).code = 9001 := by
  unfold duplicate
  split <;> rfl

theorem echo_filter (e : Effect) : (echo rules r s e).filter (·.code == 9001) = [] := by
  unfold echo
  split <;> rfl

theorem hiddenFlow_code (e : Effect) : (hiddenFlow rules r s e).code = 9002 := by
  unfold hiddenFlow
  split <;> rfl

theorem findings_filter (reported : Bool) (e : Effect) :
    (findings rules r s t reported e).filter (·.code == 9001) =
      (collision? r t (s, e)).toList := by
  unfold findings collision?
  split
  · split
    · simp [hiddenFlow_code]
    · rfl
  · cases e.action.provided? with
    | none => rfl
    | some key => cases hp : t.previousProvide? key <;> simp [hp, duplicate_code]

theorem siteReport_filter (reported : Bool) (es : List Effect) :
    (siteReport rules r s t reported es).filter (·.code == 9001) =
      collisions r t (es.map fun e => (s, e)) := by
  induction es generalizing t reported with
  | nil => rfl
  | cons e rest ih =>
    simp only [siteReport, List.filter_append, echo_filter, findings_filter, ih, List.nil_append]
    rfl

/-- The duplicates in a report come from the stream alone. -/
theorem reportOf_filter (all : List (Site × List Effect)) :
    (reportOf rules r t all).filter (·.code == 9001) = collisions r t (stream all) := by
  induction all generalizing t with
  | nil => rfl
  | cons c rest ih =>
    obtain ⟨s, effects⟩ := c
    rw [reportOf, List.filter_append, siteReport_filter, ih, record_eq_traceOf, ← collisions_append]
    simp [stream]

end Filter

section Stream
variable {r : Routine} {es rest : List (Site × Effect)} {x : Site × Effect}

theorem collides_iff_open {i : Nat} :
    Collides (es ++ x :: rest) i es.length ↔ ∃ key a, Provides x key ∧ Open es key i a := by
  constructor
  · rintro ⟨hlt, a, b, key, ha, hb, hpa, hpb, hall⟩
    rw [List.getElem?_append_left hlt] at ha
    obtain rfl : x = b := by simpa using hb
    refine ⟨key, a, hpb, ha, hpa, fun k c hk hc => ?_⟩
    have hkl := (List.getElem?_eq_some_iff.mp hc).1
    exact hall k c hk hkl (by rwa [List.getElem?_append_left hkl])
  · rintro ⟨key, a, hx, ha, hpa, hall⟩
    have hlt := (List.getElem?_eq_some_iff.mp ha).1
    refine ⟨hlt, a, x, key, by rwa [List.getElem?_append_left hlt], by simp, hpa, hx, ?_⟩
    intro k c hk hkl hc
    exact hall k c hk (by rwa [List.getElem?_append_left hkl] at hc)

theorem collision?_of_provides {key : ValueKey} (t : Trace) (h : Provides x key) :
    collision? r t x = (t.previousProvide? key).map (duplicate r x.1 key) := by
  simp [collision?, h.1, h.2, Action.provided?]

theorem collision?_of_not_provides (t : Trace) (h : ∀ key, ¬ Provides x key) :
    collision? r t x = none := by
  unfold collision?
  cases hh : x.2.hidden with
  | true => rfl
  | false =>
    cases ha : x.2.action with
    | provide key => exact absurd ⟨ha, hh⟩ (h key)
    | _ => rfl

theorem collision?_traceOf
    (hsites : ∀ y ∈ es ++ x :: rest, r.sites[y.1.index]? = some y.1)
    (hsorted : (es ++ x :: rest).Pairwise fun a b => a.1.index ≤ b.1.index) :
    match collision? r (traceOf es) x with
    | none => ∀ i, ¬ Collides (es ++ x :: rest) i es.length
    | some d => (∃ i, Collides (es ++ x :: rest) i es.length) ∧
        Reported r (es ++ x :: rest) es.length d := by
  by_cases hprov : ∃ key, Provides x key
  · obtain ⟨key, hx⟩ := hprov
    have hback := previousProvide?_traceOf es key
    rw [collision?_of_provides _ hx]
    cases hprev : (traceOf es).previousProvide? key with
    | none =>
      rw [hprev] at hback
      intro i hi
      obtain ⟨key', a, hx', hopen⟩ := collides_iff_open.mp hi
      obtain rfl := hx.key_unique hx'
      exact hback i a hopen
    | some n =>
      rw [hprev] at hback
      obtain ⟨i, a, hopen, rfl, hmax⟩ := hback
      have hi : Collides (es ++ x :: rest) i es.length := collides_iff_open.mpr ⟨key, a, hx, hopen⟩
      have hmem : a ∈ es := List.mem_of_getElem? hopen.1
      have hlt := (List.getElem?_eq_some_iff.mp hopen.1).1
      have hsite := hsites a (List.mem_append_left _ hmem)
      have hle : a.1.index ≤ x.1.index :=
        (List.pairwise_append.mp hsorted).2.2 a hmem x (.head _)
      refine ⟨⟨i, hi⟩, i, a, x, key, hi, ?_, ?_, by simp, hx, hle, ?_⟩
      · intro i' hi'
        obtain ⟨key', a', hx', hopen'⟩ := collides_iff_open.mp hi'
        obtain rfl := hx.key_unique hx'
        exact hmax i' a' hopen'
      · rw [List.getElem?_append_left hlt]
        exact hopen.1
      · simp only [duplicate, hsite]
        rfl
  · have hnone := not_exists.mp hprov
    rw [collision?_of_not_provides _ hnone]
    intro i hi
    obtain ⟨key, _, hx, _⟩ := collides_iff_open.mp hi
    exact hnone key hx

/-- The duplicates that are left to report, one for each position that collides. -/
theorem collisions_positions (es rest : List (Site × Effect))
    (hsites : ∀ y ∈ es ++ rest, r.sites[y.1.index]? = some y.1)
    (hsorted : (es ++ rest).Pairwise fun a b => a.1.index ≤ b.1.index) :
    ∃ positions : List Nat, positions.Pairwise (· < ·) ∧
      (∀ j, j ∈ positions ↔ es.length ≤ j ∧ ∃ i, Collides (es ++ rest) i j) ∧
      List.Forall₂ (Reported r (es ++ rest)) positions (collisions r (traceOf es) rest) := by
  -- the cut between the part that has been replayed and the rest moves to the right
  induction rest generalizing es with
  | nil =>
    refine ⟨[], .nil, fun j => ?_, .nil⟩
    simp only [List.not_mem_nil, false_iff, not_and]
    rintro hj ⟨i, _, a, b, key, _, hb, _⟩
    have hlt := (List.getElem?_eq_some_iff.mp hb).1
    simp only [List.append_nil] at hlt
    omega
  | cons x rest ih =>
    have hsplit : es ++ x :: rest = (es ++ [x]) ++ rest := by simp
    obtain ⟨positions, hlt, hmem, hall⟩ := ih (es ++ [x]) (hsplit ▸ hsites) (hsplit ▸ hsorted)
    have hat := collision?_traceOf hsites hsorted
    rw [← hsplit] at hmem hall
    rw [traceOf_concat] at hall
    rw [collisions]
    simp only [List.length_append, List.length_singleton] at hmem
    cases hc : collision? r (traceOf es) x with
    | none =>
      rw [hc] at hat
      refine ⟨positions, hlt, fun j => ?_, hall⟩
      rw [hmem]
      constructor
      · exact fun h => ⟨Nat.le_of_succ_le h.1, h.2⟩
      · rintro ⟨hj, i, hi⟩
        refine ⟨Nat.lt_of_le_of_ne hj fun he => hat i (he ▸ hi), i, hi⟩
    | some d =>
      rw [hc] at hat
      refine ⟨es.length :: positions, ?_, fun j => ?_, .cons hat.2 hall⟩
      · refine List.pairwise_cons.mpr ⟨fun j hj => ?_, hlt⟩
        exact ((hmem j).mp hj).1
      · rw [List.mem_cons, hmem]
        constructor
        · rintro (rfl | h)
          · exact ⟨Nat.le_refl _, hat.1⟩
          · exact ⟨Nat.le_of_succ_le h.1, h.2⟩
        · rintro ⟨hj, hi⟩
          rcases Nat.eq_or_lt_of_le hj with rfl | hlt
          · exact .inl rfl
          · exact .inr ⟨hlt, hi⟩

end Stream

theorem mem_stream {all : List (Site × List Effect)} {x : Site × Effect} (h : x ∈ stream all) :
    x.1 ∈ all.map Prod.fst := by
  obtain ⟨c, hc, hx⟩ := List.mem_flatMap.mp h
  obtain ⟨e, _, rfl⟩ := List.mem_map.mp hx
  exact List.mem_map.mpr ⟨c, hc, rfl⟩

theorem stream_pairwise {all : List (Site × List Effect)}
    (h : (all.map Prod.fst).Pairwise fun a b => a.index < b.index) :
    (stream all).Pairwise fun a b => a.1.index ≤ b.1.index := by
  induction all with
  | nil => exact .nil
  | cons c rest ih =>
    obtain ⟨hfirst, hrest⟩ := List.pairwise_cons.mp h
    refine List.pairwise_append.mpr ⟨?_, ih hrest, ?_⟩
    · exact List.pairwise_map.mpr (List.pairwise_of_forall fun _ _ => Nat.le_refl _)
    · intro a ha b hb
      obtain ⟨e, _, rfl⟩ := List.mem_map.mp ha
      exact Nat.le_of_lt (hfirst b.1 (mem_stream hb))

end Detection

open Detection in
/-- On the graph of a program, a check by any worker without cancellation reports one duplicate for each position of
its stream that collides with an earlier one, and no others. They come in the order of the stream, each at the site
of its own effect and with one related diagnostic at the site of the latest effect that it collides with. The stream
is what the sites contribute, in their order. -/
theorem duplicates_exact {s : Settings} {p : Program} {g : CallGraph}
    (hg : CallGraph.ofProgram s p = .ok g) {id : RoutineId} {r : Routine}
    (hr : g.routine? id = some r) (rules : Rules) (v : View) :
    ∃ all u report positions, contributions g false v r.id r.sites = (.ok all, u) ∧
      (∀ c ∈ all, Contributes g r.id c.1 c.2) ∧ all.map Prod.fst = r.sites ∧
      check g rules false v id = (.ok report, u) ∧
      List.Pairwise (· < ·) positions ∧
      (∀ j, j ∈ positions ↔ ∃ i, Collides (stream all) i j) ∧
      List.Forall₂ (Reported r (stream all)) positions (report.filter (·.code == 9001)) := by
  have hindexed := CallGraph.ofProgram_indexed hg
  obtain ⟨all, u, hall, hsites⟩ := contributions_succeed g v r.id r.sites
  have hown : ∀ x ∈ stream all, r.sites[x.1.index]? = some x.1 := fun x hx =>
    hindexed.getElem?_index hr (hsites ▸ mem_stream hx)
  have hsorted := stream_pairwise (hsites.symm ▸ hindexed.pairwise_index_lt hr)
  obtain ⟨positions, hlt, hmem, hreports⟩ := collisions_positions [] (stream all) hown hsorted
  refine ⟨all, u, _, positions, hall, contributes_of_mem hall, hsites, check_of_contributions hr hall,
    hlt, fun j => ?_, ?_⟩
  · simpa using hmem j
  · rw [reportOf_filter]
    exact hreports

/-- A provide, a push, and then two calls and two provides. The first call and the first provide may not run, and the
callee provides what is provided again after the second call. -/
def provideAfterCall : Program where
  routines :=
    let runtime (method : String) (start : UInt32) : Operation :=
      .invocation
        { target := ⟨"ScopyRuntime", "CurrentScope", method⟩, valueType := some "T", span := ⟨start, 1⟩ } []
    let helper (start : UInt32) : Operation :=
      .invocation { target := ⟨"", "", "Helper"⟩, span := ⟨start, 1⟩ } []
    let maybe (op : Operation) : Operation := .conditional none op none
    [{ name := "A",
       body := some (.block [runtime "Provide" 10, runtime "Push" 20, maybe (helper 30),
         maybe (runtime "Provide" 40), helper 50, runtime "Provide" 60]) },
     { name := "Helper", body := some (.block [runtime "Provide" 70]) }]

def provideAfterCallGraph : CallGraph := Lowering.graph {} 2 provideAfterCall.routines

open Detection in
/-- Only the last provide is reported, and the second call is where it was provided before. -/
theorem duplicates_exact_after_call :
    CallGraph.ofProgram {} provideAfterCall = .ok provideAfterCallGraph ∧
    ∃ r all u report, provideAfterCallGraph.routine? 0 = some r ∧
      contributions provideAfterCallGraph false {} r.id r.sites = (.ok all, u) ∧
      check provideAfterCallGraph {} false {} 0 = (.ok report, u) ∧
      (∀ k, (∃ i, Collides (stream all) i k) ↔ k = 5) ∧
      List.Forall₂ (Reported r (stream all)) [5] (report.filter (·.code == 9001)) ∧
      (report.filter (·.code == 9001)).map (fun d => (d.span, d.related.map Diagnostic.span)) =
        [(some ⟨60, 1⟩, [some ⟨50, 1⟩])] := by
  have hg : CallGraph.ofProgram {} provideAfterCall = .ok provideAfterCallGraph := by rfl
  obtain ⟨r, hr, all, u, hall, hlast⟩ : ∃ r, provideAfterCallGraph.routine? 0 = some r ∧
      ∃ all u, contributions provideAfterCallGraph false {} r.id r.sites = (.ok all, u) ∧
        Collides (stream all) 4 5 :=
    ⟨_, rfl, _, _, rfl, by decide, _, _, _, rfl, rfl, ⟨rfl, rfl⟩, ⟨rfl, rfl⟩,
      fun k c hlow hhigh => by omega⟩
  obtain ⟨report, w, hreport, hplaces⟩ : ∃ report w,
      check provideAfterCallGraph {} false {} 0 = (.ok report, w) ∧
        (report.filter (·.code == 9001)).map (fun d => (d.span, d.related.map Diagnostic.span)) =
          [(some ⟨60, 1⟩, [some ⟨50, 1⟩])] :=
    ⟨_, _, rfl, rfl⟩
  obtain ⟨all', u', report', positions, hall', _, _, hcheck, _, hmem, hreports⟩ :=
    duplicates_exact hg hr {} {}
  obtain ⟨rfl, rfl⟩ : all = all' ∧ u = u' := by simpa [hall] using hall'
  obtain ⟨rfl, rfl⟩ : report = report' ∧ w = u := by simpa [hreport] using hcheck
  -- one diagnostic has been found, so there is one position, and it is that of the last provide
  have hone : positions.length = 1 := by
    rw [hreports.length_eq, ← List.length_map, hplaces]
    rfl
  obtain ⟨j, rfl⟩ := List.length_eq_one_iff.mp hone
  obtain rfl : 5 = j := List.mem_singleton.mp ((hmem 5).mpr ⟨4, hlast⟩)
  exact ⟨hg, r, all, w, report, hr, hall, hreport,
    fun k => (hmem k).symm.trans List.mem_singleton, hreports, hplaces⟩

end AmbientScope
