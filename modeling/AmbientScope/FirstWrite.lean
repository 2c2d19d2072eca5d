/-!
# First-write maps

A finite map in which the first value written under a key stays: a later write under the same key
changes nothing. Keys are kept distinct by the type.
-/

set_option autoImplicit false

namespace AmbientScope

universe u v

/-- A finite map whose bindings are never replaced. -/
structure FirstWrite (κ : Type u) (α : Type v) where
  entries : List (κ × α) := []
  distinct : (entries.map Prod.fst).Nodup := by simp

namespace FirstWrite
variable {κ : Type u} {α : Type v}

def empty : FirstWrite κ α := {}

instance : Inhabited (FirstWrite κ α) := ⟨empty⟩

def size (m : FirstWrite κ α) : Nat := m.entries.length

def isEmpty (m : FirstWrite κ α) : Bool := m.entries.isEmpty

def keys (m : FirstWrite κ α) : List κ := m.entries.map Prod.fst

theorem nodup_keys (m : FirstWrite κ α) : m.keys.Nodup := m.distinct

variable [DecidableEq κ]

def get? (m : FirstWrite κ α) (k : κ) : Option α := m.entries.lookup k

def contains (m : FirstWrite κ α) (k : κ) : Bool := (m.get? k).isSome

theorem lookup_eq_none_iff {k : κ} {l : List (κ × α)} :
    l.lookup k = none ↔ k ∉ l.map Prod.fst := by
  induction l with
  | nil => simp
  | cons e l ih =>
    obtain ⟨k', a⟩ := e
    by_cases h : k = k'
    · subst h; simp
    · have hk : (k == k') = false := by simpa using h
      simp [List.lookup_cons, hk, h, ih]

/-- Write `a` under `k` unless `k` is already bound. -/
def insert (m : FirstWrite κ α) (k : κ) (a : α) : FirstWrite κ α :=
  match h : m.get? k with
  | some _ => m
  | none => ⟨(k, a) :: m.entries, by
      have hk := lookup_eq_none_iff.mp h
      simpa using ⟨by simpa using hk, m.distinct⟩⟩

@[simp] theorem get?_empty (k : κ) : (empty : FirstWrite κ α).get? k = none := rfl

theorem insert_of_bound {m : FirstWrite κ α} {k : κ} {b : α} (h : m.get? k = some b) (a : α) :
    m.insert k a = m := by
  unfold insert
  split
  · rfl
  · simp_all

theorem entries_insert_of_unbound {m : FirstWrite κ α} {k : κ} (h : m.get? k = none) (a : α) :
    (m.insert k a).entries = (k, a) :: m.entries := by
  unfold insert
  split
  · simp_all
  · rfl

theorem get?_insert (m : FirstWrite κ α) (k : κ) (a : α) (k' : κ) :
    (m.insert k a).get? k' = if k' = k then some ((m.get? k).getD a) else m.get? k' := by
  cases h : m.get? k with
  | some b =>
    rw [insert_of_bound h]
    by_cases hk : k' = k
    · subst hk; simp [h]
    · simp [hk]
  | none =>
    rw [get?, entries_insert_of_unbound h]
    by_cases hk : k' = k
    · subst hk; simp
    · have hb : (k' == k) = false := by simpa using hk
      simp [List.lookup_cons, hb, hk, get?]

theorem contains_iff_mem_keys {m : FirstWrite κ α} {k : κ} :
    m.contains k = true ↔ k ∈ m.keys := by
  rw [contains, ← Option.ne_none_iff_isSome, get?, ne_eq, lookup_eq_none_iff, keys]
  exact Decidable.not_not

theorem size_eq_length {m : FirstWrite κ α} {ks : List κ} (hks : ks.Nodup)
    (h : ∀ k, m.contains k = true ↔ k ∈ ks) : m.size = ks.length := by
  have hperm : m.keys.Perm ks := by
    rw [List.perm_ext_iff_of_nodup m.nodup_keys hks]
    intro k
    exact contains_iff_mem_keys.symm.trans (h k)
  simpa [keys, size] using hperm.length_eq

theorem size_eq_of_contains {m m' : FirstWrite κ α}
    (h : ∀ k, m.contains k = true ↔ m'.contains k = true) : m.size = m'.size := by
  have hsize := size_eq_length m'.nodup_keys fun k => (h k).trans contains_iff_mem_keys
  simpa [keys, size] using hsize

end FirstWrite

end AmbientScope
