import AmbientScope.Json.Reading
import AmbientScope.Proofs.WrittenText
import Mathlib.Data.List.Forall2

/-!
# Loose records

A record may be written in more than one way: its members in any order, a member left out that holds what its absence
stands for, and members of other names among them. No way of writing a record puts anything in it at fault.
-/

set_option autoImplicit false

namespace AmbientScope

namespace Json

/-! ## Nesting -/

mutual

/-- How deep arrays and objects are nested in a value. -/
def depth : Json → Nat
  | array items => itemsDepth items + 1
  | object members => membersDepth members + 1
  | _ => 0

def itemsDepth : List Json → Nat
  | [] => 0
  | v :: rest => max v.depth (itemsDepth rest)

def membersDepth : List (String × Json) → Nat
  | [] => 0
  | (_, v) :: rest => max v.depth (membersDepth rest)

end

theorem itemsDepth_le_iff {items : List Json} {n : Nat} :
    itemsDepth items ≤ n ↔ ∀ v ∈ items, v.depth ≤ n := by
  induction items with
  | nil => simp [itemsDepth]
  | cons v rest ih => simp [itemsDepth, ih]

theorem membersDepth_le_iff {members : List (String × Json)} {n : Nat} :
    membersDepth members ≤ n ↔ ∀ m ∈ members, m.2.depth ≤ n := by
  induction members with
  | nil => simp [membersDepth]
  | cons m rest ih => simp [membersDepth, ih]

theorem depth_array_le_iff {items : List Json} {n : Nat} :
    (array items).depth ≤ n ↔ ∃ room, n = room + 1 ∧ ∀ v ∈ items, v.depth ≤ room := by
  simp only [depth, ← itemsDepth_le_iff]
  cases n with
  | zero => simp
  | succ room => simp

theorem depth_object_le_iff {members : List (String × Json)} {n : Nat} :
    (object members).depth ≤ n ↔ ∃ room, n = room + 1 ∧ ∀ m ∈ members, m.2.depth ≤ room := by
  simp only [depth, ← membersDepth_le_iff]
  cases n with
  | zero => simp
  | succ room => simp

/-! ## Ways of writing -/

/-- A value that nothing is nested in and that is no number. -/
def isPlain : Json → Bool
  | null => true
  | bool _ => true
  | string _ => true
  | _ => false

end Json

/-- A member of a record: its value in the record's own text, what its absence stands for if it may be left out, and in
which ways its value may be written. -/
structure Slot where
  name : String
  absent? : Option Json
  value : Json
  ways : Json → Prop

namespace Slot

/-- A member whose value is written in one way only. -/
def exact (name : String) (absent? : Option Json) (value : Json) : Slot :=
  ⟨name, absent?, value, (· = value)⟩

def member (s : Slot) : String × Json := (s.name, s.value)

/-- The members of a record in their order, except some that hold what their absence stands for. -/
inductive Fills : List Slot → List (String × Json) → Prop where
  | nil : Fills [] []
  | write {s : Slot} {slots : List Slot} {v : Json} {ms : List (String × Json)} (hv : s.ways v)
      (rest : Fills slots ms) : Fills (s :: slots) ((s.name, v) :: ms)
  | leave {s : Slot} {slots : List Slot} {ms : List (String × Json)}
      (habsent : s.absent? = some s.value) (rest : Fills slots ms) : Fills (s :: slots) ms

/-- The members in any order, with plain members of other names among them. -/
def Writes (slots : List Slot) (ms : List (String × Json)) : Prop :=
  ∃ kept extra, Fills slots kept ∧ (∀ m ∈ extra, m.1 ∉ slots.map name ∧ m.2.isPlain = true) ∧
    ms.Perm (kept ++ extra)

theorem Fills.sublist_names {slots : List Slot} {ms : List (String × Json)} (h : Fills slots ms) :
    (ms.map Prod.fst).Sublist (slots.map name) := by
  induction h with
  | nil => exact .slnil
  | write _ _ ih => exact .cons_cons _ ih
  | leave _ _ ih => exact .cons _ ih

theorem Fills.ways {slots : List Slot} {ms : List (String × Json)} (h : Fills slots ms) :
    ∀ m ∈ ms, ∃ s ∈ slots, s.ways m.2 := by
  induction h with
  | nil => simp
  | write hv _ ih =>
    refine List.forall_mem_cons.mpr ⟨⟨_, List.mem_cons_self, hv⟩, fun m hm => ?_⟩
    obtain ⟨s, hs, hways⟩ := ih m hm
    exact ⟨s, List.mem_cons_of_mem _ hs, hways⟩
  | leave _ _ ih =>
    intro m hm
    obtain ⟨s, hs, hways⟩ := ih m hm
    exact ⟨s, List.mem_cons_of_mem _ hs, hways⟩

theorem fills_members {slots : List Slot} (h : ∀ s ∈ slots, s.ways s.value) :
    Fills slots (slots.map member) := by
  induction slots with
  | nil => exact .nil
  | cons s slots ih =>
    obtain ⟨hs, hslots⟩ := List.forall_mem_cons.mp h
    exact .write hs (ih hslots)

theorem writes_members {slots : List Slot} (h : ∀ s ∈ slots, s.ways s.value) :
    Writes slots (slots.map member) :=
  ⟨slots.map member, [], fills_members h, by simp, by simp⟩

end Slot

namespace Json

/-- The object that is the record's own text. -/
def ofSlots (slots : List Slot) : Json := object (slots.map Slot.member)

def ObjectOf (slots : List Slot) (v : Json) : Prop := ∃ ms, v = object ms ∧ Slot.Writes slots ms

/-- An array of values, each written in one of its ways. -/
def ListOf {α : Type} (ways : α → Json → Prop) (as : List α) (v : Json) : Prop :=
  ∃ vs, v = array vs ∧ List.Forall₂ ways as vs

def OptionOf {α : Type} (ways : α → Json → Prop) : Option α → Json → Prop
  | none => (· = null)
  | some a => ways a

theorem objectOf_ofSlots {slots : List Slot} (h : ∀ s ∈ slots, s.ways s.value) :
    ObjectOf slots (ofSlots slots) :=
  ⟨slots.map Slot.member, rfl, Slot.writes_members h⟩

theorem ObjectOf.ne_null {slots : List Slot} {v : Json} (h : ObjectOf slots v) : v ≠ null := by
  obtain ⟨ms, rfl, _⟩ := h
  simp

theorem listOf_map {α : Type} {ways : α → Json → Prop} {toJson : α → Json} {as : List α}
    (h : ∀ a ∈ as, ways a (toJson a)) : ListOf ways as (array (as.map toJson)) :=
  ⟨as.map toJson, rfl, by simpa [List.forall₂_map_right_iff, List.forall₂_same] using h⟩

theorem optionOf_ofOption {α : Type} {ways : α → Json → Prop} {toJson : α → Json} {o : Option α}
    (h : ∀ a ∈ o, ways a (toJson a)) : OptionOf ways o (ofOption toJson o) := by
  cases o with
  | none => rfl
  | some a => exact h a rfl

theorem depth_ofSlots_le_iff {slots : List Slot} {n : Nat} :
    (ofSlots slots).depth ≤ n ↔ ∃ room, n = room + 1 ∧ ∀ s ∈ slots, s.value.depth ≤ room := by
  simp [ofSlots, depth_object_le_iff, Slot.member]

/-! ## Values taken in whole -/

/-- A reader that takes in the value as it is meets no fault. -/
def Legible (room : Nat) (v : Json) : Prop := v.toTree.readFault? room = none

theorem legible_array_iff {room : Nat} {items : List Json} :
    (array items).Legible (room + 1) ↔ ∀ v ∈ items, v.Legible room := by
  have hitems : Tree.readItems? room (itemTrees items) = none ↔ ∀ v ∈ items, v.Legible room := by
    induction items with
    | nil => simp [itemTrees, Tree.readItems?]
    | cons v items ih => simp [itemTrees, Tree.readItems?, ih, Legible]
  simp [Legible, toTree, Tree.readFault?, hitems]

theorem legible_object_iff {room : Nat} {members : List (String × Json)} :
    (object members).Legible (room + 1) ↔ ∀ m ∈ members, m.2.Legible room := by
  have hmembers : Tree.readMembers? room (memberTrees members) = none ↔
      ∀ m ∈ members, m.2.Legible room := by
    induction members with
    | nil => simp [memberTrees, Tree.readMembers?]
    | cons m members ih => simp [memberTrees, Tree.readMembers?, ih, Legible]
  simp [Legible, toTree, Tree.readFault?, hmembers]

theorem legible_plain {v : Json} (h : v.isPlain = true) (room : Nat) : v.Legible room := by
  cases v <;> simp_all [isPlain, Legible, toTree, Tree.readFault?]

theorem legible_nat {n : Nat} (h : n < UInt64.size) (room : Nat) : (nat n).Legible room := by
  simp [nat, Legible, toTree, numeral_natCast h, Tree.readFault?]

theorem ObjectOf.legible {slots : List Slot} {room : Nat} {v : Json}
    (hslots : ∀ s ∈ slots, ∀ v, s.ways v → v.Legible room) (h : ObjectOf slots v) :
    v.Legible (room + 1) := by
  obtain ⟨ms, rfl, kept, extra, hkept, hextra, hperm⟩ := h
  rw [legible_object_iff]
  intro m hm
  rcases List.mem_append.mp (hperm.subset hm) with hin | hin
  · obtain ⟨s, hs, hways⟩ := hkept.ways m hin
    exact hslots s hs m.2 hways
  · exact legible_plain (hextra m hin).2 room

end Json

end AmbientScope
