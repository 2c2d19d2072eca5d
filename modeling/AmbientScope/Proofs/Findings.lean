import AmbientScope.Proofs.Duplicates
import Mathlib.Data.List.Forall2

/-!
# Findings of a check

What the diagnostics of a check are about: each duplicate is about a site and a key, each report of hidden flow about
a site. Both lists can be read off what the sites contribute, in the order in which they are reported.
-/

set_option autoImplicit false

namespace AmbientScope

namespace Detection

/-- The site and the key of an effect that collides with an earlier one. -/
def duplicateKey? (t : Trace) (x : Site × Effect) : Option (Nat × ValueKey) :=
  if x.2.hidden then none
  else x.2.action.provided?.bind fun key => (t.previousProvide? key).map fun _ => (x.1.index, key)

def duplicateKeys (t : Trace) : List (Site × Effect) → List (Nat × ValueKey)
  | [] => []
  | x :: rest => (duplicateKey? t x).toList ++ duplicateKeys (entry x :: t) rest

/-- The sites that contribute a hidden effect. -/
def hiddenSites (all : List (Site × List Effect)) : List Nat :=
  (all.filter fun c => c.2.any Effect.hidden).map fun c => c.1.index

/-- The diagnostic stands at the site with the given position. -/
def StandsAt (r : Routine) (n : Nat) (d : Diagnostic) : Prop :=
  ∃ s ∈ r.sites, s.index = n ∧ d.file = r.file ∧ d.span = some s.span

/-- The diagnostic says at a site that a key is provided already. -/
def ReportsKey (r : Routine) (k : Nat × ValueKey) (d : Diagnostic) : Prop :=
  StandsAt r k.1 d ∧ d.message = Template.alreadyProvided.fill [k.2.describe]

section Duplicates
variable {r : Routine} {x : Site × Effect}

theorem duplicate_reportsKey {s : Site} (hs : s ∈ r.sites) (key : ValueKey) (previous : Nat) :
    ReportsKey r (s.index, key) (duplicate r s key previous) := by
  unfold duplicate
  split
  · exact ⟨⟨s, hs, rfl, rfl, rfl⟩, rfl⟩
  · exact ⟨⟨s, hs, rfl, rfl, rfl⟩, rfl⟩

theorem collision?_reportsKey (t : Trace) (hx : x.1 ∈ r.sites) :
    List.Forall₂ (ReportsKey r) (duplicateKey? t x).toList (collision? r t x).toList := by
  unfold duplicateKey? collision?
  split
  · exact .nil
  · cases x.2.action.provided? with
    | none => exact .nil
    | some key =>
      cases hp : t.previousProvide? key with
      | none => simp [hp]
      | some previous => simpa [hp] using duplicate_reportsKey hx key previous

theorem collisions_reportsKey (t : Trace) (es : List (Site × Effect))
    (hes : ∀ x ∈ es, x.1 ∈ r.sites) :
    List.Forall₂ (ReportsKey r) (duplicateKeys t es) (collisions r t es) := by
  induction es generalizing t with
  | nil => exact .nil
  | cons x rest ih =>
    obtain ⟨hx, hrest⟩ := List.forall_mem_cons.mp hes
    exact List.rel_append (collision?_reportsKey t hx) (ih _ hrest)

end Duplicates

section Hidden
variable {rules : Rules} {r : Routine} {s : Site}

theorem filter_echo_hidden (e : Effect) : (echo rules r s e).filter (·.code == 9002) = [] := by
  unfold echo
  split <;> rfl

/-- Of the effects of a site only the first hidden one is reported as such. -/
theorem filter_siteReport_hidden (hflow : rules.reportHiddenFlow = true) (t : Trace)
    (reported : Bool) (es : List Effect) :
    (siteReport rules r s t reported es).filter (·.code == 9002) =
      if reported then [] else ((es.find? Effect.hidden).map (hiddenFlow rules r s)).toList := by
  induction es generalizing t reported with
  | nil => cases reported <;> rfl
  | cons e rest ih =>
    rw [siteReport, List.filter_append, List.filter_append, filter_echo_hidden, ih]
    cases he : e.hidden with
    | true => cases reported <;> simp [findings, he, hflow, hiddenFlow_code]
    | false =>
      have hnone : (findings rules r s t reported e).filter (·.code == 9002) = [] := by
        unfold findings
        cases e.action.provided? with
        | none => simp [he]
        | some key => cases hp : t.previousProvide? key <;> simp [he, hp, duplicate_code]
      simp [hnone, he]

/-- Hidden flow is reported once for each site with a hidden effect, and is about the first one. -/
theorem filter_reportOf_hidden (hflow : rules.reportHiddenFlow = true) (t : Trace)
    (all : List (Site × List Effect)) :
    (reportOf rules r t all).filter (·.code == 9002) =
      all.filterMap fun c => (c.2.find? Effect.hidden).map (hiddenFlow rules r c.1) := by
  induction all generalizing t with
  | nil => rfl
  | cons c rest ih =>
    rw [reportOf, List.filter_append, filter_siteReport_hidden hflow, ih, List.filterMap_cons]
    cases c.2.find? Effect.hidden <;> rfl

theorem hiddenFlow_standsAt (hs : s ∈ r.sites) (e : Effect) :
    StandsAt r s.index (hiddenFlow rules r s e) := by
  unfold hiddenFlow
  split <;> exact ⟨s, hs, rfl, rfl, rfl⟩

theorem reportOf_standsAt (hflow : rules.reportHiddenFlow = true) (t : Trace)
    (all : List (Site × List Effect)) (hsites : ∀ c ∈ all, c.1 ∈ r.sites) :
    List.Forall₂ (StandsAt r) (hiddenSites all)
      ((reportOf rules r t all).filter (·.code == 9002)) := by
  rw [filter_reportOf_hidden hflow]
  induction all with
  | nil => exact .nil
  | cons c rest ih =>
    obtain ⟨hs, hrest⟩ := List.forall_mem_cons.mp hsites
    rw [List.filterMap_cons]
    cases hfind : c.2.find? Effect.hidden with
    | none =>
      have hany : c.2.any Effect.hidden = false := by simpa using hfind
      have hskip : hiddenSites (c :: rest) = hiddenSites rest := by
        simp [hiddenSites, hany]
      rw [hskip]
      exact ih hrest
    | some e =>
      have hany : c.2.any Effect.hidden = true :=
        List.any_eq_true.mpr ⟨e, List.mem_of_find?_eq_some hfind, List.find?_some hfind⟩
      have hcons : hiddenSites (c :: rest) = c.1.index :: hiddenSites rest := by
        simp [hiddenSites, hany]
      rw [hcons]
      exact .cons (hiddenFlow_standsAt hs e) (ih hrest)

end Hidden

/-- The report on the contributions of the sites of a routine: one duplicate for each of the sites with a key that the
contributions provide twice, and one report of hidden flow for each site with a hidden effect, in this order. -/
structure Finds (rules : Rules) (r : Routine) (all : List (Site × List Effect)) (report : Report) :
    Prop where
  sites : all.map Prod.fst = r.sites
  reported : report = reportOf rules r [] all
  duplicates :
    List.Forall₂ (ReportsKey r) (duplicateKeys [] (stream all)) (report.filter (·.code == 9001))
  hidden : List.Forall₂ (StandsAt r) (hiddenSites all) (report.filter (·.code == 9002))

theorem finds_reportOf {rules : Rules} (hflow : rules.reportHiddenFlow = true) {r : Routine}
    {all : List (Site × List Effect)} (hsites : all.map Prod.fst = r.sites) :
    Finds rules r all (reportOf rules r [] all) := by
  refine ⟨hsites, rfl, ?_, ?_⟩
  · rw [reportOf_filter]
    exact collisions_reportsKey [] _ fun x hx => hsites ▸ mem_stream hx
  · exact reportOf_standsAt hflow [] all fun c hc => hsites ▸ List.mem_map_of_mem hc

end Detection

end AmbientScope
