import AmbientScope.Program.Document
import AmbientScope.Proofs.LooseRecords

/-!
# Loose programs

The ways to write a program as a value: each of its records may be written loosely, wherever it stands. The program's own
value is one of them.
-/

set_option autoImplicit false

namespace AmbientScope

namespace Span

def slots (s : Span) : List Slot :=
  [ .exact "start" none (.nat s.start.toNat)
  , .exact "length" (some (.nat 0)) (.nat s.length.toNat) ]

def Written (s : Span) : Json → Prop := Json.ObjectOf s.slots

end Span

namespace MethodName

def slots (m : MethodName) : List Slot :=
  [ .exact "namespace" (some (.string "")) (.string m.namespaceName)
  , .exact "typeName" (some (.string "")) (.string m.typeName)
  , .exact "method" none (.string m.method) ]

def Written (m : MethodName) : Json → Prop := Json.ObjectOf m.slots

end MethodName

namespace Operation

/-- The member that names the kind. -/
def Kind.slot (k : Kind) : Slot := .exact "kind" none (.string k.name)

mutual

/-- The members of an operation, the kind first; the operations below are written loosely in their turn. -/
def slots : Operation → List Slot
  | block children =>
    [ Kind.block.slot
    , ⟨"children", some (.array []), .array (listToJson children), listWays children⟩ ]
  | invocation call arguments =>
    [ Kind.invocation.slot
    , ⟨"target", none, call.target.toJson, call.target.Written⟩
    , .exact "valueType" (some .null) (.ofOption .string call.valueType)
    , .exact "key" (some .null) (.ofOption .string call.key)
    , .exact "label" (some .null) (.ofOption .string call.label)
    , ⟨"arguments", some (.array []), .array (listToJson arguments), listWays arguments⟩
    , ⟨"span", some (Span.toJson {}), call.span.toJson, call.span.Written⟩ ]
  | conditional condition whenTrue whenFalse =>
    [ Kind.conditional.slot
    , ⟨"condition", some .null, optionToJson condition, optionWays condition⟩
    , ⟨"whenTrue", none, whenTrue.toJson, Json.ObjectOf whenTrue.slots⟩
    , ⟨"whenFalse", some .null, optionToJson whenFalse, optionWays whenFalse⟩ ]
  | loop children =>
    [ Kind.loop.slot
    , ⟨"children", some (.array []), .array (listToJson children), listWays children⟩ ]
  | switch value arms =>
    [ Kind.switch.slot
    , ⟨"value", some .null, optionToJson value, optionWays value⟩
    , ⟨"arms", some (.array []), .array (listToJson arms), listWays arms⟩ ]
  | attempt body handlers cleanup =>
    [ Kind.attempt.slot
    , ⟨"body", none, body.toJson, Json.ObjectOf body.slots⟩
    , ⟨"handlers", some (.array []), .array (listToJson handlers), listWays handlers⟩
    , ⟨"finally", some .null, optionToJson cleanup, optionWays cleanup⟩ ]
  | other children =>
    [ Kind.other.slot
    , ⟨"children", some (.array []), .array (listToJson children), listWays children⟩ ]

def listWays : List Operation → Json → Prop
  | [], v => v = .array []
  | op :: rest, v =>
    ∃ w ws, v = .array (w :: ws) ∧ Json.ObjectOf op.slots w ∧ listWays rest (.array ws)

def optionWays : Option Operation → Json → Prop
  | none, v => v = .null
  | some op, v => Json.ObjectOf op.slots v

end

def Written (op : Operation) : Json → Prop := Json.ObjectOf op.slots

end Operation

namespace Parameter

def slots (p : Parameter) : List Slot :=
  [ .exact "name" none (.string p.name)
  , .exact "type" none (.string p.type)
  , .exact "attributes" (some (.array [])) (.strings p.attributes) ]

def Written (p : Parameter) : Json → Prop := Json.ObjectOf p.slots

end Parameter

namespace Declaration

def slots (d : Declaration) : List Slot :=
  [ .exact "name" none (.string d.name)
  , .exact "containingType" (some (.string "")) (.string d.containingType)
  , .exact "namespace" (some (.string "")) (.string d.namespaceName)
  , ⟨"params", some (.array []), .array (d.params.map Parameter.toJson),
      Json.ListOf Parameter.Written d.params⟩
  , .exact "returnType" (some .null) (.ofOption .string d.returnType)
  , .exact "attributes" (some (.array [])) (.strings d.attributes)
  , .exact "file" (some .null) (.ofOption .string d.file)
  , ⟨"span", some (Span.toJson {}), d.span.toJson, d.span.Written⟩
  , ⟨"body", some .null, .ofOption Operation.toJson d.body, Json.OptionOf Operation.Written d.body⟩ ]

def Written (d : Declaration) : Json → Prop := Json.ObjectOf d.slots

end Declaration

namespace Program

def slots (p : Program) : List Slot :=
  [⟨"routines", none, .array (p.routines.map Declaration.toJson),
      Json.ListOf Declaration.Written p.routines⟩]

/-- The ways to write a program: its value, with the members of any objects in another order, those left out that hold
what their absence stands for, and plain members added under names that the object does not know. -/
def Written (p : Program) : Json → Prop := Json.ObjectOf p.slots

end Program

/-! ## A program's own value -/

namespace Span

theorem toJson_eq_ofSlots (s : Span) : s.toJson = .ofSlots s.slots := rfl

theorem written_toJson (s : Span) : s.Written s.toJson :=
  Json.objectOf_ofSlots (by simp [slots, Slot.exact])

end Span

namespace MethodName

theorem toJson_eq_ofSlots (m : MethodName) : m.toJson = .ofSlots m.slots := rfl

theorem written_toJson (m : MethodName) : m.Written m.toJson :=
  Json.objectOf_ofSlots (by simp [slots, Slot.exact])

end MethodName

namespace Operation

theorem listToJson_eq_map (ops : List Operation) : listToJson ops = ops.map toJson := by
  induction ops with
  | nil => rfl
  | cons op rest ih => rw [listToJson, ih, List.map_cons]

theorem optionToJson_eq (o : Option Operation) : optionToJson o = .ofOption toJson o := by
  cases o <;> rfl

theorem listWays_eq (ops : List Operation) : listWays ops = Json.ListOf Written ops := by
  funext v
  induction ops generalizing v with
  | nil => simp [listWays, Json.ListOf]
  | cons op rest ih => simp [listWays, ih, Json.ListOf, List.forall₂_cons_left_iff, Written]

theorem optionWays_eq (o : Option Operation) : optionWays o = Json.OptionOf Written o := by
  cases o <;> rfl

theorem toJson_eq_ofSlots (op : Operation) : op.toJson = .ofSlots op.slots := by
  cases op <;> simp [toJson, slots, Json.ofSlots, Slot.member, Slot.exact, Kind.slot, Kind.name]

theorem toJson_ne_null (op : Operation) : op.toJson ≠ .null := by
  rw [toJson_eq_ofSlots]
  simp [Json.ofSlots]

theorem not_written_null (op : Operation) : ¬ op.Written .null := fun h => h.ne_null rfl

theorem listWays_listToJson {ops : List Operation} (h : ∀ op ∈ ops, op.Written op.toJson) :
    listWays ops (.array (listToJson ops)) := by
  rw [listWays_eq, listToJson_eq_map]
  exact Json.listOf_map h

theorem optionWays_optionToJson {o : Option Operation} (h : ∀ op ∈ o, op.Written op.toJson) :
    optionWays o (optionToJson o) := by
  rw [optionWays_eq, optionToJson_eq]
  exact Json.optionOf_ofOption h

theorem written_toJson (op : Operation) : op.Written op.toJson := by
  induction op using Operation.induction with
  | step op ih =>
    rw [toJson_eq_ofSlots]
    refine Json.objectOf_ofSlots ?_
    cases op with
    | block children =>
      have hchildren : listWays children _ := listWays_listToJson ih
      simpa [slots, Kind.slot, Slot.exact]
    | invocation call arguments =>
      have harguments : listWays arguments _ := listWays_listToJson ih
      simpa [slots, Kind.slot, Slot.exact, call.target.written_toJson, call.span.written_toJson]
    | conditional condition whenTrue whenFalse =>
      have hcondition := optionWays_optionToJson fun op (h : op ∈ condition) => ih op (by simp_all [parts])
      have htrue : Json.ObjectOf whenTrue.slots _ := ih whenTrue (by simp [parts])
      have hfalse := optionWays_optionToJson fun op (h : op ∈ whenFalse) => ih op (by simp_all [parts])
      simp [slots, Kind.slot, Slot.exact, hcondition, htrue, hfalse]
    | loop children =>
      have hchildren : listWays children _ := listWays_listToJson ih
      simpa [slots, Kind.slot, Slot.exact]
    | switch value arms =>
      have hvalue := optionWays_optionToJson fun op (h : op ∈ value) => ih op (by simp_all [parts])
      have harms := listWays_listToJson fun op (h : op ∈ arms) => ih op (by simp_all [parts])
      simp [slots, Kind.slot, Slot.exact, hvalue, harms]
    | attempt body handlers cleanup =>
      have hbody : Json.ObjectOf body.slots _ := ih body (by simp [parts])
      have hhandlers := listWays_listToJson fun op (h : op ∈ handlers) => ih op (by simp_all [parts])
      have hcleanup := optionWays_optionToJson fun op (h : op ∈ cleanup) => ih op (by simp_all [parts])
      simp [slots, Kind.slot, Slot.exact, hbody, hhandlers, hcleanup]
    | other children =>
      have hchildren : listWays children _ := listWays_listToJson ih
      simpa [slots, Kind.slot, Slot.exact]

end Operation

namespace Parameter

theorem toJson_eq_ofSlots (p : Parameter) : p.toJson = .ofSlots p.slots := rfl

theorem written_toJson (p : Parameter) : p.Written p.toJson :=
  Json.objectOf_ofSlots (by simp [slots, Slot.exact])

end Parameter

namespace Declaration

theorem toJson_eq_ofSlots (d : Declaration) : d.toJson = .ofSlots d.slots := rfl

theorem written_toJson (d : Declaration) : d.Written d.toJson := by
  have hparams := Json.listOf_map fun p (_ : p ∈ d.params) => p.written_toJson
  have hbody := Json.optionOf_ofOption fun op (_ : op ∈ d.body) => op.written_toJson
  exact Json.objectOf_ofSlots (by simp [slots, Slot.exact, hparams, hbody, Span.written_toJson])

end Declaration

namespace Program

theorem toJson_eq_ofSlots (p : Program) : p.toJson = .ofSlots p.slots := rfl

theorem written_toJson (p : Program) : p.Written p.toJson := by
  have hroutines := Json.listOf_map fun d (_ : d ∈ p.routines) => d.written_toJson
  exact Json.objectOf_ofSlots (by simp [slots, hroutines])

end Program

end AmbientScope
