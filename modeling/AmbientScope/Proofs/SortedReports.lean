import AmbientScope.Diagnostic.Report
import Mathlib.Data.List.Pairwise

/-!
# Sorted reports

Sorting keeps the order of diagnostics that stand at the same place under the same code, so it makes no difference
whether diagnostics are picked out before or after. Where no two diagnostics share place and code, the sorted report
depends on nothing but which diagnostics there are.
-/

set_option autoImplicit false

namespace AmbientScope

instance : Std.TransCmp Diagnostic.order := by
  unfold Diagnostic.order
  infer_instance

namespace Diagnostic

theorem le_trans (a b c : Diagnostic) (hab : a.le b = true) (hbc : b.le c = true) :
    a.le c = true :=
  Std.TransCmp.isLE_trans hab hbc

theorem le_total (a b : Diagnostic) : (a.le b || b.le a) = true := by
  unfold le
  rw [(Std.OrientedCmp.eq_swap : order b a = (order a b).swap)]
  cases order a b <;> rfl

/-- Diagnostics that are ordered both ways have the same file, start and code. -/
theorem order_eq_of_le {a b : Diagnostic} (hab : a.le b = true) (hba : b.le a = true) :
    order a b = .eq := by
  unfold le at hab hba
  rw [(Std.OrientedCmp.eq_swap : order b a = (order a b).swap)] at hba
  cases h : order a b <;> simp_all

/-- What reports are sorted by: file, start and code. -/
def sortKey (d : Diagnostic) : Option String × Nat × Nat := (d.file, d.start, d.code)

theorem compare_file_eq_lt {a b : Option String} : compare a b = .lt ↔ a < b := by
  cases a with
  | none => cases b <;> simp [compare]
  | some x =>
    cases b with
    | none => simp [compare]
    | some y => exact compareOfLessAndEq_eq_lt.trans Option.some_lt_some.symm

/-- A diagnostic without a file comes before those with one. -/
theorem le_iff {a b : Diagnostic} : a.le b = true ↔
    Prod.Lex (· < ·) (Prod.Lex (· < ·) (· ≤ ·)) a.sortKey b.sortKey := by
  simp only [le, order, compareLex, compareOn, Ordering.isLE_then_iff_or, compare_file_eq_lt,
    Std.compare_eq_lt, Std.compare_eq_iff_eq, Std.isLE_compare, Prod.lex_def, sortKey]

end Diagnostic

namespace Report

theorem sort_pairwise (r : Report) : r.sort.Pairwise fun a b => a.le b = true :=
  List.pairwise_mergeSort Diagnostic.le_trans Diagnostic.le_total r

/-- A diagnostic goes behind those that are strictly before it and in front of all others. -/
theorem sort_cons (d : Diagnostic) (r : Report) :
    ∃ l₁ l₂, sort (d :: r) = l₁ ++ d :: l₂ ∧ sort r = l₁ ++ l₂ ∧
      (∀ b ∈ l₁, d.le b = false) ∧ ∀ b ∈ l₂, d.le b = true := by
  obtain ⟨l₁, l₂, hcons, hrest, hbefore⟩ :=
    List.mergeSort_cons Diagnostic.le_trans Diagnostic.le_total d r
  have hsorted : (l₁ ++ d :: l₂).Pairwise fun a b => a.le b = true := hcons ▸ sort_pairwise (d :: r)
  refine ⟨l₁, l₂, hcons, hrest, fun b hb => by simpa using hbefore b hb, ?_⟩
  exact (List.pairwise_cons.mp (List.pairwise_append.mp hsorted).2.1).1

/-- Where a report is cut in two by a test, it can be cut in no other way. -/
theorem cut_unique {test : Diagnostic → Bool} {l₁ l₂ m₁ m₂ : Report} (h : l₁ ++ l₂ = m₁ ++ m₂)
    (hl₁ : ∀ b ∈ l₁, test b = false) (hl₂ : ∀ b ∈ l₂, test b = true)
    (hm₁ : ∀ b ∈ m₁, test b = false) (hm₂ : ∀ b ∈ m₂, test b = true) : l₁ = m₁ ∧ l₂ = m₂ := by
  have hcut {k₁ k₂ : Report} (hk₁ : ∀ b ∈ k₁, test b = false) (hk₂ : ∀ b ∈ k₂, test b = true) :
      (k₁ ++ k₂).filter test = k₂ := by
    rw [List.filter_append, List.filter_eq_nil_iff.mpr fun b hb => by simp [hk₁ b hb],
      List.filter_eq_self.mpr hk₂, List.nil_append]
  have hsecond : l₂ = m₂ := by rw [← hcut hl₁ hl₂, h, hcut hm₁ hm₂]
  subst hsecond
  exact ⟨List.append_cancel_right h, rfl⟩

/-- Picking diagnostics out of a report commutes with sorting it. -/
theorem filter_sort (p : Diagnostic → Bool) (r : Report) :
    (sort r).filter p = sort (r.filter p) := by
  induction r with
  | nil => simp [sort]
  | cons d r ih =>
    obtain ⟨l₁, l₂, hcons, hrest, hl₁, hl₂⟩ := sort_cons d r
    rw [hrest, List.filter_append] at ih
    rw [hcons, List.filter_append]
    by_cases hd : p d = true
    · obtain ⟨m₁, m₂, hcons', hrest', hm₁, hm₂⟩ := sort_cons d (r.filter p)
      obtain ⟨rfl, rfl⟩ := cut_unique (ih.trans hrest')
        (fun b hb => hl₁ b (List.mem_filter.mp hb).1) (fun b hb => hl₂ b (List.mem_filter.mp hb).1)
        hm₁ hm₂
      rw [List.filter_cons_of_pos hd, List.filter_cons_of_pos hd, hcons']
    · rw [List.filter_cons_of_neg hd, List.filter_cons_of_neg hd, ih]

/-- The second report is the first one in order, where diagnostics of one key stand as before. -/
structure SortsInto (r r' : Report) : Prop where
  perm : r'.Perm r
  ordered : r'.Pairwise fun a b =>
    Prod.Lex (· < ·) (Prod.Lex (· < ·) (· ≤ ·)) a.sortKey b.sortKey
  stable : ∀ key, r'.filter (fun d => d.sortKey = key) = r.filter fun d => d.sortKey = key

theorem sortsInto_sort (r : Report) : r.SortsInto r.sort where
  perm := sort_perm r
  ordered := (sort_pairwise r).imp Diagnostic.le_iff.mp
  stable := by
    intro key
    have hsame : (r.filter fun d => d.sortKey = key).Pairwise fun a b => a.le b = true := by
      apply List.pairwise_of_forall_mem_list
      intro a ha b hb
      have ha' := of_decide_eq_true (List.mem_filter.mp ha).2
      have hb' := of_decide_eq_true (List.mem_filter.mp hb).2
      rw [Diagnostic.le_iff, ha', ← hb', ← Diagnostic.le_iff]
      simpa using Diagnostic.le_total b b
    rw [filter_sort]
    exact List.mergeSort_of_pairwise hsame

/-- In a sorted report of one file the starts ascend. -/
theorem SortsInto.starts_ascend {r r' : Report} {file : Option String} (h : r.SortsInto r')
    (hfile : ∀ d ∈ r, d.file = file) : (r'.map Diagnostic.start).Pairwise (· ≤ ·) := by
  rw [List.pairwise_map]
  refine h.ordered.imp_of_mem fun {a b} ha hb hab => ?_
  have hsame : a.file = b.file :=
    (hfile a (h.perm.subset ha)).trans (hfile b (h.perm.subset hb)).symm
  simp only [Prod.lex_def, Diagnostic.sortKey, hsame] at hab
  rcases hab with hlt | ⟨-, hlt | ⟨heq, -⟩⟩
  · have hself := Diagnostic.compare_file_eq_lt.mpr hlt
    rw [Std.compare_self] at hself
    cases hself
  · exact Nat.le_of_lt hlt
  · exact Nat.le_of_eq heq

/-- Sorting looks at places and codes only. -/
theorem map_sort {f : Diagnostic → Diagnostic} (hf : ∀ a b, (f a).le (f b) = a.le b) (r : Report) :
    (sort r).map f = sort (r.map f) :=
  List.map_mergeSort fun a _ b _ => (hf a b).symm

/-- Where no two diagnostics share file, start and code, sorting forgets the order of the report. -/
theorem sort_eq_of_perm {r r' : Report} (h : r.Perm r')
    (hkeys : r.Pairwise fun a b => Diagnostic.order a b ≠ .eq) : sort r = sort r' := by
  have : Std.Symm fun a b : Diagnostic => Diagnostic.order a b ≠ .eq :=
    ⟨fun a b hab hba => hab (Std.OrientedCmp.eq_symm hba)⟩
  apply List.Perm.eq_of_pairwise _ (sort_pairwise r) (sort_pairwise r')
    ((sort_perm r).trans (h.trans (sort_perm r').symm))
  intro a b ha hb hab hba
  by_contra hne
  exact hkeys.forall ((sort_perm r).mem_iff.mp ha)
    (h.mem_iff.mpr ((sort_perm r').mem_iff.mp hb)) hne (Diagnostic.order_eq_of_le hab hba)

end Report

end AmbientScope
