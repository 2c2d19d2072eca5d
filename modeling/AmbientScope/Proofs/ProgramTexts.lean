import AmbientScope.Program.Document
import AmbientScope.Proofs.LoosePrograms
import AmbientScope.Proofs.LooseReading

/-!
# Program texts

A program is read back from its text, and from the text of every other way to write it. An operation is taken in whole
before its fields are read; then its kind is found among its members, and the others are read as those of a record are.
-/

set_option autoImplicit false

namespace AmbientScope
open Reader

namespace Span

theorem toJson_injective : Function.Injective toJson := by
  rintro ⟨start, length⟩ ⟨start', length'⟩ h
  simpa [toJson, Json.nat, UInt32.toNat_inj] using h

theorem fitted (s : Span) (r : Reading) :
    Fitted r {} fields s.slots
      [ fun t => { t with start := .ofNat s.start.toNat }
      , fun t => { t with length := .ofNat s.length.toNat } ] := by
  refine .required rfl rfl (takes_natBelow _ r (by decide) s.start.toNat_lt) ?_
  refine .defaulted rfl (fun hleft => ?_) (takes_natBelow _ r (by decide) s.length.toNat_lt) .nil
  have hnumber : (0 : Int) = s.length.toNat := Json.number.inj (Option.some.inj hleft)
  have hzero : s.length.toNat = 0 := by omega
  rw [hzero]
  rfl

theorem takes_reader (s : Span) (r : Reading) : Takes reader s r s.toJson s.Written := by
  refine takes_record (fun r' _ => s.fitted r') ?_ ?_ ?_
  · simp [slots, Slot.exact]
  · simp
  · simp

end Span

namespace MethodName

theorem fitted (m : MethodName) (r : Reading) :
    Fitted r ⟨"", "", ""⟩ fields m.slots
      [ fun n => { n with namespaceName := m.namespaceName }
      , fun n => { n with typeName := m.typeName }
      , fun n => { n with method := m.method } ] := by
  refine .text rfl ?_
  refine .text rfl ?_
  exact .required rfl rfl (takes_string m.method r) .nil

theorem takes_reader (m : MethodName) (r : Reading) : Takes reader m r m.toJson m.Written := by
  refine takes_record (fun r' _ => m.fitted r') ?_ ?_ ?_
  · simp [slots, Slot.exact]
  · simp
  · rfl

end MethodName

namespace Operation

/-! ## Taking in an operation -/

theorem reader_name (k : Kind) (r : Reading) : Kind.reader r (Json.string k.name).toTree = .ok k := by
  cases k <;> rfl

theorem settle_of_legible {r : Reading} {v : Json} (h : v.Legible r.room) :
    r.settle v.toTree = .ok () := by
  rw [Json.Legible] at h
  simp [Reading.settle, h]

theorem gather_others {r : Reading} {kind : Option Kind} {ms : List (String × Json)}
    (hlegible : ∀ m ∈ ms, m.2.Legible r.room) (hkind : ∀ m ∈ ms, m.1 ≠ "kind") :
    gather r kind (Json.memberTrees ms) = .ok (kind, Json.memberTrees ms) := by
  induction ms with
  | nil => rfl
  | cons m ms ih =>
    obtain ⟨hm, hms⟩ := List.forall_mem_cons.mp hlegible
    obtain ⟨hkey, hkeys⟩ := List.forall_mem_cons.mp hkind
    simp only [Json.memberTrees, gather, if_neg hkey, settle_of_legible hm, ih hms hkeys, Bind.bind,
      Except.bind]

theorem gather_kind {r : Reading} {k : Kind} {before after : List (String × Json)}
    (hlegible : ∀ m ∈ before ++ after, m.2.Legible r.room)
    (hkind : ∀ m ∈ before ++ after, m.1 ≠ "kind") :
    gather r none (Json.memberTrees (before ++ ("kind", .string k.name) :: after)) =
      .ok (some k, Json.memberTrees (before ++ after)) := by
  induction before with
  | nil =>
    have hafter : gather r (some k) (Json.memberTrees after) = .ok (some k, Json.memberTrees after) :=
      gather_others hlegible hkind
    simp [Json.memberTrees, gather, reader_name, hafter, Bind.bind, Except.bind]
  | cons m before ih =>
    obtain ⟨hm, hms⟩ := List.forall_mem_cons.mp hlegible
    obtain ⟨hkey, hkeys⟩ := List.forall_mem_cons.mp hkind
    simp only [List.cons_append, Json.memberTrees, gather, if_neg hkey, settle_of_legible hm,
      ih hms hkeys, Bind.bind, Except.bind]

/-- Among the members of an operation its kind stands once, and the others are those of its fields. -/
theorem writes_kind {k : Kind} {slots : List Slot} {ms : List (String × Json)}
    (hkind : "kind" ∉ slots.map Slot.name) (h : Slot.Writes (k.slot :: slots) ms) :
    ∃ before after, ms = before ++ ("kind", .string k.name) :: after ∧
      (∀ m ∈ before ++ after, m.1 ≠ "kind") ∧ Slot.Writes slots (before ++ after) := by
  obtain ⟨kept, extra, hkept, hextra, hperm⟩ := h
  cases hkept with
  | leave habsent _ => simp [Kind.slot, Slot.exact] at habsent
  | @write _ _ v kept hv hkept =>
    obtain rfl : v = .string k.name := hv
    obtain ⟨before, after, rfl⟩ := List.append_of_mem (hperm.symm.subset List.mem_cons_self)
    have hothers : (before ++ after).Perm (kept ++ extra) :=
      (List.perm_middle.symm.trans hperm).cons_inv
    refine ⟨before, after, rfl, fun m hm hkey => ?_, kept, extra, hkept, fun m hm => ?_, hothers⟩
    · rcases List.mem_append.mp (hothers.subset hm) with hin | hin
      · exact hkind (hkey ▸ hkept.sublist_names.subset (List.mem_map_of_mem hin))
      · exact (hextra m hin).1 (hkey ▸ List.mem_cons_self)
    · obtain ⟨hother, hplain⟩ := hextra m hm
      exact ⟨fun hin => hother (List.mem_cons_of_mem _ hin), hplain⟩

theorem take_of_legible {k : Kind} {slots : List Slot} {r : Reading} {room : Nat} {v : Json}
    (hroom : r.room = room + 1) (hlegible : v.Legible (room + 1)) (hkind : "kind" ∉ slots.map Slot.name)
    (h : Json.ObjectOf (k.slot :: slots) v) :
    ∃ ms, take r v.toTree = .ok (k, .members (Json.memberTrees ms), ⟨true, room⟩) ∧
      Slot.Writes slots ms := by
  obtain ⟨_, rfl, hms⟩ := h
  obtain ⟨before, after, rfl, hothers, hwrites⟩ := writes_kind hkind hms
  rw [Json.legible_object_iff] at hlegible
  have hsub : ∀ m ∈ before ++ after, m.2.Legible room := by
    intro m hm
    exact hlegible m (List.perm_middle.symm.subset (List.mem_cons_of_mem _ hm))
  have hgather := @gather_kind { r with room := room } k before after hsub hothers
  refine ⟨before ++ after, ?_, hwrites⟩
  simp only [Json.toTree, take, enter_of_room hroom, hgather, Reading.leave, Bind.bind, Except.bind]

/-! ## Reading an operation -/

/-- An operation is legible and taken apart once its fields fit the members besides the kind, and then these fields are
read. -/
theorem content_of_fitted {σ : Type} {k : Kind} {slots : List Slot} {r : Reading} {v : Json} {start : σ}
    {fields : List (RecordField σ)} {changes : List (σ → σ)}
    (hfit : ∀ r', r'.room + 1 = r.room → Fitted r' start fields slots changes)
    (hnames : ("kind" :: slots.map Slot.name).Nodup) (hchanges : Independent changes)
    (hdepth : (Json.ofSlots (k.slot :: slots)).depth ≤ r.room) (h : Json.ObjectOf (k.slot :: slots) v) :
    v.Legible r.room ∧ ∃ content r', take r v.toTree = .ok (k, content, r') ∧
      ∀ wanted, content.read wanted fields start r' = .ok (changeAll changes start) := by
  obtain ⟨room, hroom, hdepths⟩ := Json.depth_ofSlots_le_iff.mp hdepth
  obtain ⟨_, hslots⟩ := List.forall_mem_cons.mp hdepths
  obtain ⟨hkind, hrest⟩ := List.nodup_cons.mp hnames
  have hfields := hfit ⟨true, room⟩ hroom.symm
  have hlegible : v.Legible (room + 1) := by
    refine h.legible (List.forall_mem_cons.mpr ⟨?_, hfields.legible hslots⟩)
    rintro _ rfl
    exact Json.legible_plain rfl room
  obtain ⟨ms, htake, hwrites⟩ := take_of_legible hroom hlegible hkind h
  exact ⟨hroom ▸ hlegible, _, _, htake, fun _ => hfields.ofMembers hslots hrest hchanges hwrites⟩

/-- Reading takes the operation wherever fewer levels of nesting are left. -/
def TakenBelow (n room : Nat) (op : Operation) : Prop :=
  ∀ r : Reading, r.room < room → Takes (read n) op r op.toJson op.Written

section Contents
variable {n room : Nat} {r : Reading} (hr : r.room < room)
include hr

theorem fitted_children {children : List Operation} (h : ∀ op ∈ children, TakenBelow n room op) :
    Fitted r [] (childrenFields (read n))
      [⟨"children", some (.array []), .array (children.map toJson), Json.ListOf Written children⟩]
      [fun _ => children] :=
  .list rfl (fun op hop r' _ => h op hop r' (by omega)) .nil

theorem fitted_invocation (call : Call) {arguments : List Operation}
    (h : ∀ op ∈ arguments, TakenBelow n room op) :
    Fitted r (⟨⟨"", "", ""⟩, none, none, none, {}⟩, []) (invocationFields (read n))
      [ ⟨"target", none, call.target.toJson, call.target.Written⟩
      , .exact "valueType" (some .null) (.ofOption .string call.valueType)
      , .exact "key" (some .null) (.ofOption .string call.key)
      , .exact "label" (some .null) (.ofOption .string call.label)
      , ⟨"arguments", some (.array []), .array (arguments.map toJson), Json.ListOf Written arguments⟩
      , ⟨"span", some (Span.toJson {}), call.span.toJson, call.span.Written⟩ ]
      [ fun s => ({ s.1 with target := call.target }, s.2)
      , fun s => ({ s.1 with valueType := call.valueType }, s.2)
      , fun s => ({ s.1 with key := call.key }, s.2)
      , fun s => ({ s.1 with label := call.label }, s.2)
      , fun s => (s.1, arguments)
      , fun s => ({ s.1 with span := call.span }, s.2) ] := by
  refine .required rfl rfl (call.target.takes_reader r) ?_
  refine .optionalText rfl ?_
  refine .optionalText rfl ?_
  refine .optionalText rfl ?_
  refine .list rfl (fun op hop r' _ => h op hop r' (by omega)) ?_
  refine .defaulted rfl (fun hleft => ?_) (call.span.takes_reader r) .nil
  rw [← Span.toJson_injective (Option.some.inj hleft)]

theorem fitted_conditional {condition : Option Operation} {whenTrue : Operation}
    {whenFalse : Option Operation}
    (h : ∀ op ∈ condition.toList ++ whenTrue :: whenFalse.toList, TakenBelow n room op) :
    Fitted r (none, default, none) (conditionalFields (read n))
      [ ⟨"condition", some .null, .ofOption toJson condition, Json.OptionOf Written condition⟩
      , ⟨"whenTrue", none, whenTrue.toJson, whenTrue.Written⟩
      , ⟨"whenFalse", some .null, .ofOption toJson whenFalse, Json.OptionOf Written whenFalse⟩ ]
      [ fun s => (condition, s.2), fun s => (s.1, whenTrue, s.2.2), fun s => (s.1, s.2.1, whenFalse) ] := by
  refine .option rfl toJson_ne_null not_written_null (fun op hop => h op (by simp_all) r hr) ?_
  refine .required rfl rfl (h whenTrue (by simp) r hr) ?_
  exact .option rfl toJson_ne_null not_written_null (fun op hop => h op (by simp_all) r hr) .nil

theorem fitted_switch {value : Option Operation} {arms : List Operation}
    (h : ∀ op ∈ value.toList ++ arms, TakenBelow n room op) :
    Fitted r (none, []) (switchFields (read n))
      [ ⟨"value", some .null, .ofOption toJson value, Json.OptionOf Written value⟩
      , ⟨"arms", some (.array []), .array (arms.map toJson), Json.ListOf Written arms⟩ ]
      [fun s => (value, s.2), fun s => (s.1, arms)] := by
  refine .option rfl toJson_ne_null not_written_null (fun op hop => h op (by simp_all) r hr) ?_
  exact .list rfl (fun op hop r' _ => h op (by simp_all) r' (by omega)) .nil

theorem fitted_attempt {body : Operation} {handlers : List Operation} {cleanup : Option Operation}
    (h : ∀ op ∈ body :: handlers ++ cleanup.toList, TakenBelow n room op) :
    Fitted r (default, [], none) (attemptFields (read n))
      [ ⟨"body", none, body.toJson, body.Written⟩
      , ⟨"handlers", some (.array []), .array (handlers.map toJson), Json.ListOf Written handlers⟩
      , ⟨"finally", some .null, .ofOption toJson cleanup, Json.OptionOf Written cleanup⟩ ]
      [ fun s => (body, s.2), fun s => (s.1, handlers, s.2.2), fun s => (s.1, s.2.1, cleanup) ] := by
  refine .required rfl rfl (h body (by simp) r hr) ?_
  refine .list rfl (fun op hop r' _ => h op (by simp_all) r' (by omega)) ?_
  exact .option rfl toJson_ne_null not_written_null (fun op hop => h op (by simp_all) r hr) .nil

end Contents

theorem content_of_children {n : Nat} {k : Kind} {children : List Operation} {r : Reading} {v : Json}
    (h : ∀ op ∈ children, TakenBelow n r.room op)
    (hdepth : (Json.ofSlots [k.slot, ⟨"children", some (.array []), .array (listToJson children),
      listWays children⟩]).depth ≤ r.room)
    (hv : Json.ObjectOf [k.slot, ⟨"children", some (.array []), .array (listToJson children),
      listWays children⟩] v) :
    v.Legible r.room ∧ ∃ content r', take r v.toTree = .ok (k, content, r') ∧
      ∀ wanted, content.read wanted (childrenFields (read n)) [] r' = .ok children := by
  rw [listWays_eq, listToJson_eq_map] at hdepth hv
  exact content_of_fitted (fun r' hr' => fitted_children (by omega) h) (by simp) (by simp) hdepth hv

/-- The number of rounds only has to exceed the room, since every operation takes some of both. -/
theorem takes_read (op : Operation) :
    ∀ n r, r.room < n → Takes (read n) op r op.toJson op.Written := by
  induction op using Operation.induction with
  | step op ih =>
    intro n r hn hdepth v hv
    obtain ⟨n, rfl⟩ : ∃ m, n = m + 1 := ⟨n - 1, by omega⟩
    rw [toJson_eq_ofSlots] at hdepth
    have hparts : ∀ part ∈ op.parts, TakenBelow n r.room part :=
      fun part hpart r' hr' => ih part hpart n r' (by omega)
    cases op with
    | block children =>
      obtain ⟨hlegible, content, r', htake, hread⟩ := content_of_children hparts hdepth hv
      refine ⟨hlegible, ?_⟩
      simp only [read, htake, hread, Bind.bind, Except.bind, parts]
    | invocation call arguments =>
      rw [Written] at hv
      simp only [slots, listWays_eq, listToJson_eq_map] at hdepth hv
      obtain ⟨hlegible, content, r', htake, hread⟩ := content_of_fitted
        (fun r' hr' => fitted_invocation (by omega) call hparts) (by simp [Slot.exact])
        (by simp) hdepth hv
      refine ⟨hlegible, ?_⟩
      simp only [read, htake, hread, Bind.bind, Except.bind, parts, changeAll_cons, changeAll_nil]
    | conditional condition whenTrue whenFalse =>
      rw [Written] at hv
      simp only [slots, optionWays_eq, optionToJson_eq] at hdepth hv
      obtain ⟨hlegible, content, r', htake, hread⟩ := content_of_fitted
        (fun r' hr' => fitted_conditional (by omega) hparts) (by simp)
        (by simp) hdepth hv
      refine ⟨hlegible, ?_⟩
      simp only [read, htake, hread, Bind.bind, Except.bind, changeAll_cons, changeAll_nil]
    | loop children =>
      obtain ⟨hlegible, content, r', htake, hread⟩ := content_of_children hparts hdepth hv
      refine ⟨hlegible, ?_⟩
      simp only [read, htake, hread, Bind.bind, Except.bind, parts]
    | switch value arms =>
      rw [Written] at hv
      simp only [slots, listWays_eq, listToJson_eq_map, optionWays_eq, optionToJson_eq] at hdepth hv
      obtain ⟨hlegible, content, r', htake, hread⟩ := content_of_fitted
        (fun r' hr' => fitted_switch (by omega) hparts) (by simp)
        (by simp) hdepth hv
      refine ⟨hlegible, ?_⟩
      simp only [read, htake, hread, Bind.bind, Except.bind, changeAll_cons, changeAll_nil]
    | attempt body handlers cleanup =>
      rw [Written] at hv
      simp only [slots, listWays_eq, listToJson_eq_map, optionWays_eq, optionToJson_eq] at hdepth hv
      obtain ⟨hlegible, content, r', htake, hread⟩ := content_of_fitted
        (fun r' hr' => fitted_attempt (by omega) hparts) (by simp)
        (by simp) hdepth hv
      refine ⟨hlegible, ?_⟩
      simp only [read, htake, hread, Bind.bind, Except.bind, changeAll_cons, changeAll_nil]
    | other children =>
      obtain ⟨hlegible, content, r', htake, hread⟩ := content_of_children hparts hdepth hv
      refine ⟨hlegible, ?_⟩
      simp only [read, htake, hread, Bind.bind, Except.bind, parts]

theorem takes_reader (op : Operation) (r : Reading) : Takes reader op r op.toJson op.Written :=
  op.takes_read (r.room + 1) r (by omega)

end Operation

namespace Parameter

theorem fitted (p : Parameter) (r : Reading) :
    Fitted r ⟨"", "", []⟩ fields p.slots
      [ fun q => { q with name := p.name }
      , fun q => { q with type := p.type }
      , fun q => { q with attributes := p.attributes } ] := by
  refine .required rfl rfl (takes_string p.name r) ?_
  refine .required rfl rfl (takes_string p.type r) ?_
  exact .texts rfl .nil

theorem takes_reader (p : Parameter) (r : Reading) : Takes reader p r p.toJson p.Written := by
  refine takes_record (fun r' _ => p.fitted r') ?_ ?_ ?_
  · simp [slots, Slot.exact]
  · simp
  · rfl

end Parameter

namespace Declaration

theorem fitted (d : Declaration) (r : Reading) :
    Fitted r { name := "" } fields d.slots
      [ fun e => { e with name := d.name }
      , fun e => { e with containingType := d.containingType }
      , fun e => { e with namespaceName := d.namespaceName }
      , fun e => { e with params := d.params }
      , fun e => { e with returnType := d.returnType }
      , fun e => { e with attributes := d.attributes }
      , fun e => { e with file := d.file }
      , fun e => { e with span := d.span }
      , fun e => { e with body := d.body } ] := by
  refine .required rfl rfl (takes_string d.name r) ?_
  refine .text rfl ?_
  refine .text rfl ?_
  refine .list rfl (fun p _ r' _ => p.takes_reader r') ?_
  refine .optionalText rfl ?_
  refine .texts rfl ?_
  refine .optionalText rfl ?_
  refine .defaulted rfl (fun hleft => ?_) (d.span.takes_reader r) ?_
  · rw [← Span.toJson_injective (Option.some.inj hleft)]
  · exact .option rfl Operation.toJson_ne_null Operation.not_written_null
      (fun op _ => op.takes_reader r) .nil

theorem takes_reader (d : Declaration) (r : Reading) : Takes reader d r d.toJson d.Written := by
  refine takes_record (fun r' _ => d.fitted r') ?_ ?_ ?_
  · simp [slots, Slot.exact]
  · simp
  · rfl

end Declaration

namespace Program

theorem fitted (p : Program) (r : Reading) :
    Fitted r ⟨[]⟩ fields p.slots [fun q => { q with routines := p.routines }] :=
  .required rfl rfl (takes_list fun d _ r' _ => Declaration.takes_reader d r') .nil

theorem takes_reader (p : Program) (r : Reading) : Takes reader p r p.toJson p.Written := by
  refine takes_record (fun r' _ => p.fitted r') ?_ ?_ ?_
  · simp [slots]
  · simp
  · rfl

/-- A program that nests no deeper than a reader follows is read from its text, and from every other text that writes it. -/
theorem parse_written (p : Program) (hdepth : p.toJson.depth ≤ 127) :
    parse p.print = .ok p ∧ ∀ v, p.Written v → parse v.compact = .ok p := by
  have hparse : ∀ v, p.Written v → parse v.compact = .ok p := by
    intro v hv
    have hread := (p.takes_reader {} hdepth v hv).2
    simp only [parse, document, Tree.ofText_compact, hread, Bind.bind, Except.bind, List.isEmpty_nil,
      if_true]
  exact ⟨hparse p.toJson p.written_toJson, hparse⟩

/-- A routine that makes one call, and that only under a condition. -/
def guardedCall : Program :=
  ⟨[{ name := "Main"
      span := ⟨3, 0⟩
      body := some (.conditional none
        (.invocation { target := { method := "Load" }, key := some "a\"b" } []) none) }]⟩

/-- The same program with its members in another order, without those that may be left out, and with strange ones. -/
def guardedCallRearranged : Json :=
  .object
    [ ("note", .null)
    , ("routines", .array [.object
        [ ("body", .object
            [ ("whenTrue", .object
                [ ("target", .object [("method", .string "Load")])
                , ("key", .string "a\"b")
                , ("kind", .string "invocation") ])
            , ("kind", .string "conditional")
            , ("checked", .bool true) ])
        , ("name", .string "Main")
        , ("span", .object [("start", .nat 3)]) ]]) ]

theorem parse_written_rearranged :
    guardedCall.toJson.depth ≤ 127 ∧ guardedCall.Written guardedCallRearranged ∧
    parse guardedCall.print = .ok guardedCall ∧
    parse guardedCallRearranged.compact = .ok guardedCall := by
  have hdepth : guardedCall.toJson.depth ≤ 127 := by decide
  have htarget : MethodName.Written ⟨"", "", "Load"⟩ (.object [("method", .string "Load")]) :=
    ⟨_, rfl, _, [], .leave rfl (.leave rfl (.write rfl .nil)), by simp, .refl _⟩
  have hspan : Span.Written ⟨3, 0⟩ (.object [("start", .nat 3)]) :=
    ⟨_, rfl, _, [], .write rfl (.leave rfl .nil), by simp, .refl _⟩
  have hwritten : guardedCall.Written guardedCallRearranged := by
    refine ⟨_, rfl, _, [("note", .null)], .write ⟨_, rfl, .cons ?routine .nil⟩ .nil,
      by simp [slots, Json.isPlain], .swap _ _ _⟩
    refine ⟨_, rfl, _, [], .write rfl (.leave rfl (.leave rfl (.leave rfl (.leave rfl (.leave rfl
      (.leave rfl (.write hspan (.write ?body .nil)))))))), by simp, @List.perm_append_comm _ [_] [_, _]⟩
    refine ⟨_, rfl, _, [("checked", .bool true)], .write rfl (.leave rfl (.write ?call (.leave rfl .nil))),
      by simp [Operation.slots, Operation.Kind.slot, Slot.exact, Json.isPlain], .swap _ _ _⟩
    exact ⟨_, rfl, _, [], .write rfl (.write htarget (.leave rfl (.write rfl (.leave rfl (.leave rfl
      (.leave rfl .nil)))))), by simp, @List.perm_append_comm _ [_, _] [_]⟩
  obtain ⟨hprint, hother⟩ := parse_written guardedCall hdepth
  exact ⟨hdepth, hwritten, hprint, hother _ hwritten⟩

end Program

end AmbientScope
