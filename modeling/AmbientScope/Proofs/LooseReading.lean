import AmbientScope.Proofs.LooseRecords
import Mathlib.Data.List.Nodup
import Mathlib.Data.List.Pairwise
import Mathlib.Data.List.Perm.Basic

/-!
# Loose reading

A record is read the same in whichever way it is written. Each field reads the member of its own name, the fields change
different parts of the record, a member that is left out would have changed nothing, and members of other names are passed
over.
-/

set_option autoImplicit false

namespace AmbientScope

namespace Reader

variable {σ α : Type}

/-! ## Independent changes -/

/-- Any two of the changes may trade places. -/
def Independent (changes : List (σ → σ)) : Prop :=
  changes.Pairwise fun f g => ∀ s, f (g s) = g (f s)

/-- A record after all changes, made one after the other. -/
def changeAll (changes : List (σ → σ)) (s : σ) : σ := changes.foldl (fun s change => change s) s

@[simp] theorem independent_nil : Independent ([] : List (σ → σ)) := List.Pairwise.nil

@[simp] theorem independent_cons {change : σ → σ} {changes : List (σ → σ)} :
    Independent (change :: changes) ↔
      (∀ c ∈ changes, ∀ s, change (c s) = c (change s)) ∧ Independent changes :=
  List.pairwise_cons

@[simp] theorem changeAll_nil (s : σ) : changeAll [] s = s := rfl

@[simp] theorem changeAll_cons (change : σ → σ) (changes : List (σ → σ)) (s : σ) :
    changeAll (change :: changes) s = changeAll changes (change s) := rfl

theorem changeAll_change {changes : List (σ → σ)} {change : σ → σ}
    (h : ∀ c ∈ changes, ∀ s, change (c s) = c (change s)) (s : σ) :
    changeAll changes (change s) = change (changeAll changes s) := by
  induction changes generalizing s with
  | nil => rfl
  | cons c changes ih =>
    obtain ⟨hc, hchanges⟩ := List.forall_mem_cons.mp h
    rw [changeAll_cons, changeAll_cons, ← hc s, ih hchanges]

theorem Independent.swap {changes : List (σ → σ)} (h : Independent changes) {f g : σ → σ}
    (hf : f ∈ changes) (hg : g ∈ changes) : ∀ s, f (g s) = g (f s) := by
  have hsymm : Std.Symm fun f g : σ → σ => ∀ s, f (g s) = g (f s) :=
    ⟨fun _ _ hswap s => (hswap s).symm⟩
  exact List.Pairwise.forall_of_forall (fun _ _ _ => rfl) h hf hg

/-- The order does not matter either where some of the changes change nothing. -/
theorem Independent.changeAll_perm {changes done done' : List (σ → σ)} (h : Independent changes)
    (hdone : ∀ c ∈ done, c ∈ changes ∨ c = id) (hperm : done.Perm done') (s : σ) :
    changeAll done s = changeAll done' s := by
  refine hperm.foldl_eq' (fun f hf g hg s => ?_) s
  rcases hdone f hf with hf | rfl
  · rcases hdone g hg with hg | rfl
    · exact h.swap hg hf s
    · rfl
  · rfl

/-! ## Members in any order -/

/-- What a member does to the record read so far: the field of its name changes it, and a member without a field is passed
over. -/
inductive Does (fields : List (RecordField σ)) (r : Reading) : String × Json → (σ → σ) → Prop where
  | field {key : String} {v : Json} {f : RecordField σ} {change : σ → σ}
      (hfind : fields.find? (·.name == key) = some f) (hread : f.read r v.toTree = .ok change) :
      Does fields r (key, v) change
  | skip {key : String} {v : Json} (hfind : fields.find? (·.name == key) = none)
      (hskip : r.skip v.toTree = .ok ()) : Does fields r (key, v) id

/-- The names of those members that have a field. -/
def known (fields : List (RecordField σ)) (ms : List (String × Json)) : List String :=
  (ms.map Prod.fst).filter fun key => (fields.find? (·.name == key)).isSome

theorem members_of_does {fields : List (RecordField σ)} {r : Reading} {ms : List (String × Json)}
    {changes : List (σ → σ)} (h : List.Forall₂ (Does fields r) ms changes) (s : σ) {met : List String}
    (hnames : (known fields ms ++ met).Nodup) :
    members fields r s met (Json.memberTrees ms) =
      .ok (changeAll changes s, (known fields ms).reverse ++ met) := by
  induction h generalizing s met with
  | nil => rfl
  | @cons m change ms changes hm _ ih =>
    cases hm with
    | @field key v f _ hfind hread =>
      have hknown : known fields ((key, v) :: ms) = key :: known fields ms := by simp [known, hfind]
      rw [hknown, List.cons_append] at hnames
      have hmet : key ∉ met := fun hin => (List.nodup_cons.mp hnames).1 (List.mem_append_right _ hin)
      have hrest := ih (change s) (List.perm_middle.nodup_iff.mpr hnames)
      simp only [Json.memberTrees, members, hfind, if_neg hmet, hread, Bind.bind, Except.bind, hrest,
        hknown, List.reverse_cons, List.append_assoc, List.singleton_append, changeAll_cons]
    | @skip key v hfind hskip =>
      have hknown : known fields ((key, v) :: ms) = known fields ms := by simp [known, hfind]
      rw [hknown] at hnames ⊢
      simp only [Json.memberTrees, members, hfind, hskip, Bind.bind, Except.bind, ih s hnames,
        changeAll_cons, id]

theorem complete_of_met {met : List String} {fields : List (RecordField σ)}
    (h : ∀ f ∈ fields, f.presence = .required → f.name ∈ met) : complete met fields = .ok () := by
  induction fields with
  | nil => rfl
  | cons f fields ih =>
    obtain ⟨hf, hfields⟩ := List.forall_mem_cons.mp h
    rw [complete, if_neg (fun hlacks => hlacks.2 (hf hlacks.1)), ih hfields]

theorem skip_plain {v : Json} (h : v.isPlain = true) (r : Reading) : r.skip v.toTree = .ok () := by
  cases v <;> simp_all [Json.isPlain, Json.toTree, Reading.skip, Tree.skipFault?]

/-! ## Fields and members -/

/-- However a value is written, if there is room for the nesting, nothing in it is at fault and the reader takes it for
`a`. -/
def Takes (reader : Reader α) (a : α) (r : Reading) (value : Json) (ways : Json → Prop) : Prop :=
  value.depth ≤ r.room → ∀ v, ways v → v.Legible r.room ∧ reader r v.toTree = .ok a

/-- Each field reads the member of its name, and where the member may be left out it would do nothing to a fresh record. -/
inductive Fitted (r : Reading) (start : σ) :
    List (RecordField σ) → List Slot → List (σ → σ) → Prop where
  | nil : Fitted r start [] [] []
  | cons {f : RecordField σ} {s : Slot} {change : σ → σ} {fields : List (RecordField σ)}
      {slots : List Slot} {changes : List (σ → σ)} (hname : f.name = s.name)
      (htakes : Takes f.read change r s.value s.ways)
      (habsent : s.absent? = some s.value → f.presence ≠ .required ∧ change start = start)
      (rest : Fitted r start fields slots changes) :
      Fitted r start (f :: fields) (s :: slots) (change :: changes)

section
variable {r : Reading} {start : σ} {fields : List (RecordField σ)} {slots : List Slot}
  {changes : List (σ → σ)}

theorem Fitted.names (h : Fitted r start fields slots changes) :
    fields.map RecordField.name = slots.map Slot.name := by
  induction h with
  | nil => rfl
  | cons hname _ _ _ ih => simp [hname, ih]

/-- The members that are written do together what all of them do. -/
theorem Fitted.does {ms : List (String × Json)} {all : List (RecordField σ)}
    (h : Fitted r start fields slots changes) (hms : Slot.Fills slots ms)
    (hroom : ∀ s ∈ slots, s.value.depth ≤ r.room) (hchanges : Independent changes)
    (hall : ∀ f ∈ fields, all.find? (·.name == f.name) = some f) :
    ∃ written, List.Forall₂ (Does all r) ms written ∧ written.Sublist changes ∧
      changeAll written start = changeAll changes start := by
  induction h generalizing ms with
  | nil =>
    cases hms
    exact ⟨[], .nil, .slnil, rfl⟩
  | @cons f s change fields slots changes hname htakes habsent _ ih =>
    obtain ⟨hs, hslots⟩ := List.forall_mem_cons.mp hroom
    obtain ⟨hf, hfields⟩ := List.forall_mem_cons.mp hall
    obtain ⟨hchange, hchanges⟩ := independent_cons.mp hchanges
    cases hms with
    | @write _ _ v ms hv hrest =>
      obtain ⟨written, hdoes, hsub, hsame⟩ := ih hrest hslots hchanges hfields
      have hwritten : ∀ c ∈ written, ∀ s, change (c s) = c (change s) :=
        fun c hc => hchange c (hsub.subset hc)
      refine ⟨change :: written, .cons ?_ hdoes, .cons_cons _ hsub, ?_⟩
      · exact .field (hname ▸ hf) (htakes hs v hv).2
      · rw [changeAll_cons, changeAll_cons, changeAll_change hwritten, changeAll_change hchange, hsame]
    | leave hleft hrest =>
      obtain ⟨written, hdoes, hsub, hsame⟩ := ih hrest hslots hchanges hfields
      refine ⟨written, hdoes, .cons _ hsub, ?_⟩
      rw [changeAll_cons, (habsent hleft).2, hsame]

theorem Fitted.legible (h : Fitted r start fields slots changes)
    (hroom : ∀ s ∈ slots, s.value.depth ≤ r.room) :
    ∀ s ∈ slots, ∀ v, s.ways v → v.Legible r.room := by
  induction h with
  | nil => simp
  | cons _ htakes _ _ ih =>
    obtain ⟨hs, hslots⟩ := List.forall_mem_cons.mp hroom
    exact List.forall_mem_cons.mpr ⟨fun v hv => (htakes hs v hv).1, ih hslots⟩

/-- A field that must not be left out is among the members. -/
theorem Fitted.required_mem {ms : List (String × Json)} (h : Fitted r start fields slots changes)
    (hms : Slot.Fills slots ms) : ∀ f ∈ fields, f.presence = .required → f.name ∈ ms.map Prod.fst := by
  induction h generalizing ms with
  | nil => simp
  | cons hname _ habsent _ ih =>
    cases hms with
    | write _ hrest =>
      refine List.forall_mem_cons.mpr ⟨fun _ => by simp [hname], fun f hf hrequired => ?_⟩
      exact List.mem_cons_of_mem _ (ih hrest f hf hrequired)
    | leave hleft hrest =>
      exact List.forall_mem_cons.mpr ⟨fun hrequired => absurd hrequired (habsent hleft).1, ih hrest⟩

end

theorem find?_field {fields : List (RecordField σ)} (h : (fields.map RecordField.name).Nodup)
    {f : RecordField σ} (hf : f ∈ fields) : fields.find? (·.name == f.name) = some f := by
  have hsome : (fields.find? (·.name == f.name)).isSome := by
    rw [List.find?_isSome]
    exact ⟨f, hf, by simp⟩
  obtain ⟨g, hg⟩ := Option.isSome_iff_exists.mp hsome
  have hname : g.name = f.name := by simpa using List.find?_some hg
  rw [hg, List.inj_on_of_nodup_map h (List.mem_of_find?_eq_some hg) hf hname]

section Records
variable {r : Reading} {start : σ} {fields : List (RecordField σ)} {slots : List Slot}
  {changes : List (σ → σ)} {ms kept extra : List (String × Json)}

theorem Fitted.does_nothing (h : Fitted r start fields slots changes)
    (hextra : ∀ m ∈ extra, m.1 ∉ slots.map Slot.name ∧ m.2.isPlain = true) :
    List.Forall₂ (Does fields r) extra (extra.map fun _ => id) := by
  rw [List.forall₂_map_right_iff, List.forall₂_same]
  rintro ⟨key, v⟩ hm
  obtain ⟨hother, hplain⟩ := hextra _ hm
  rw [← h.names] at hother
  exact .skip (by simpa [List.find?_eq_none] using hother) (skip_plain hplain r)

/-- The members in the order of the text, with others among them, do together what all of them do in field order. -/
theorem Fitted.does_together (h : Fitted r start fields slots changes)
    (hroom : ∀ s ∈ slots, s.value.depth ≤ r.room) (hnames : (slots.map Slot.name).Nodup)
    (hchanges : Independent changes) (hms : Slot.Writes slots ms) :
    ∃ done, List.Forall₂ (Does fields r) ms done ∧ changeAll done start = changeAll changes start := by
  obtain ⟨kept, extra, hkept, hextra, hperm⟩ := hms
  have hfields : (fields.map RecordField.name).Nodup := h.names ▸ hnames
  obtain ⟨written, hwritten, hsub, hsame⟩ :=
    h.does hkept hroom hchanges fun f hf => find?_field hfields hf
  obtain ⟨done, hdone, hdonePerm⟩ :=
    List.perm_comp_forall₂ hperm (List.rel_append hwritten (h.does_nothing hextra))
  have hmem : ∀ c ∈ done, c ∈ changes ∨ c = id := by
    intro c hc
    rcases List.mem_append.mp (hdonePerm.subset hc) with hin | hin
    · exact .inl (hsub.subset hin)
    · exact .inr (List.mem_map.mp hin).choose_spec.2.symm
  refine ⟨done, hdone, ?_⟩
  calc
    changeAll done start = changeAll (written ++ extra.map fun _ => id) start :=
      hchanges.changeAll_perm hmem hdonePerm start
    _ = changeAll written start := by
      rw [changeAll, List.foldl_append, List.foldl_map]
      exact List.foldl_fixed extra
    _ = changeAll changes start := hsame

/-- With members of other names among them, the members that have a field are still the ones written for it. -/
theorem Fitted.known_perm (h : Fitted r start fields slots changes) (hkept : Slot.Fills slots kept)
    (hextra : ∀ m ∈ extra, m.1 ∉ slots.map Slot.name) (hperm : ms.Perm (kept ++ extra)) :
    (known fields ms).Perm (kept.map Prod.fst) := by
  have hknown (key : String) :
      (fields.find? (·.name == key)).isSome = true ↔ key ∈ slots.map Slot.name := by
    rw [← h.names]
    simp
  have hall : (kept.map Prod.fst).filter (fun key => (fields.find? (·.name == key)).isSome) =
      kept.map Prod.fst :=
    List.filter_eq_self.mpr fun key hkey => (hknown key).mpr (hkept.sublist_names.subset hkey)
  have hnone : (extra.map Prod.fst).filter (fun key => (fields.find? (·.name == key)).isSome) = [] := by
    rw [List.filter_eq_nil_iff]
    intro key hkey
    obtain ⟨m, hm, rfl⟩ := List.mem_map.mp hkey
    exact fun hin => hextra m hm ((hknown m.1).mp hin)
  simpa [known, hall, hnone] using
    (hperm.map Prod.fst).filter fun key => (fields.find? (·.name == key)).isSome

/-- A record is read from its members in any of the ways to write them. -/
theorem Fitted.ofMembers (h : Fitted r start fields slots changes)
    (hroom : ∀ s ∈ slots, s.value.depth ≤ r.room) (hnames : (slots.map Slot.name).Nodup)
    (hchanges : Independent changes) (hms : Slot.Writes slots ms) :
    ofMembers fields start r (Json.memberTrees ms) none = .ok (changeAll changes start) := by
  obtain ⟨done, hdone, hsame⟩ := h.does_together hroom hnames hchanges hms
  obtain ⟨kept, extra, hkept, hextra, hperm⟩ := hms
  have hknown := h.known_perm hkept (fun m hm => (hextra m hm).1) hperm
  have hnodup : (known fields ms ++ []).Nodup := by
    rw [List.append_nil, hknown.nodup_iff]
    exact hkept.sublist_names.nodup hnames
  have hrequired : ∀ f ∈ fields, f.presence = .required → f.name ∈ (known fields ms).reverse ++ [] := by
    intro f hf hreq
    simpa using hknown.symm.subset (h.required_mem hkept f hf hreq)
  simp only [Reader.ofMembers, members_of_does hdone start hnodup, Reading.leave,
    complete_of_met hrequired, hsame, Bind.bind, Except.bind]

end Records

/-! ## Readers -/

theorem enter_of_room {r : Reading} {room : Nat} (h : r.room = room + 1) :
    r.enter = .ok { r with room := room } := by
  simp [Reading.enter, h]

theorem Takes.map {β : Type} {reader : Reader α} {a : α} {r : Reading} {value : Json}
    {ways : Json → Prop} (h : Takes reader a r value ways) (put : α → β) :
    Takes (fun r t => (reader r t).map put) (put a) r value ways := by
  intro hdepth v hv
  obtain ⟨hlegible, hread⟩ := h hdepth v hv
  exact ⟨hlegible, congrArg (Except.map put) hread⟩

theorem takes_string (s : String) (r : Reading) : Takes string s r (.string s) (· = .string s) := by
  rintro _ _ rfl
  exact ⟨Json.legible_plain rfl _, rfl⟩

theorem takes_natBelow {limit n : Nat} (wanted : String) (r : Reading) (hlimit : limit ≤ UInt64.size)
    (hn : n < limit) : Takes (natBelow limit wanted) n r (.nat n) (· = .nat n) := by
  rintro _ _ rfl
  have hsize : n < UInt64.size := Nat.lt_of_lt_of_le hn hlimit
  refine ⟨Json.legible_nat hsize _, ?_⟩
  simp [Json.nat, Json.toTree, Json.numeral_natCast hsize, natBelow, hn]

theorem items_of_forall₂ {reader : Reader α} {ways : α → Json → Prop} {r : Reading} {as : List α}
    {vs : List Json} (h : List.Forall₂ ways as vs)
    (htakes : ∀ a ∈ as, ∀ v, ways a v → v.Legible r.room ∧ reader r v.toTree = .ok a) :
    (∀ v ∈ vs, v.Legible r.room) ∧ items reader r (Json.itemTrees vs) = .ok as := by
  induction h with
  | nil => exact ⟨by simp, rfl⟩
  | @cons a v as vs hv _ ih =>
    obtain ⟨hfirst, hrest⟩ := List.forall_mem_cons.mp htakes
    obtain ⟨hlegible, hread⟩ := hfirst v hv
    obtain ⟨hlegibles, hreads⟩ := ih hrest
    refine ⟨List.forall_mem_cons.mpr ⟨hlegible, hlegibles⟩, ?_⟩
    simp only [Json.itemTrees, items, hread, hreads, Bind.bind, Except.bind]

theorem takes_list {reader : Reader α} {toJson : α → Json} {ways : α → Json → Prop} {as : List α}
    {r : Reading}
    (h : ∀ a ∈ as, ∀ r', r'.room + 1 = r.room → Takes reader a r' (toJson a) (ways a)) :
    Takes (list reader) as r (.array (as.map toJson)) (Json.ListOf ways as) := by
  rintro hdepth _ ⟨vs, rfl, hvs⟩
  obtain ⟨room, hroom, hdepths⟩ := Json.depth_array_le_iff.mp hdepth
  obtain ⟨hlegible, hitems⟩ := @items_of_forall₂ _ reader _ { r with room := room } _ _ hvs
    fun a ha => h a ha _ hroom.symm (hdepths _ (List.mem_map_of_mem ha))
  refine ⟨hroom ▸ Json.legible_array_iff.mpr hlegible, ?_⟩
  simp only [Json.toTree, list, enter_of_room hroom, hitems, Reading.leave, Bind.bind, Except.bind]

theorem takes_optional {reader : Reader α} {toJson : α → Json} {ways : α → Json → Prop} {o : Option α}
    {r : Reading} (hnull : ∀ a ∈ o, ¬ ways a .null)
    (h : ∀ a ∈ o, Takes reader a r (toJson a) (ways a)) :
    Takes (optional reader) o r (.ofOption toJson o) (Json.OptionOf ways o) := by
  intro hdepth v hv
  cases o with
  | none =>
    obtain rfl := hv
    exact ⟨Json.legible_plain rfl _, rfl⟩
  | some a =>
    obtain ⟨hlegible, hread⟩ := h a rfl hdepth v hv
    refine ⟨hlegible, ?_⟩
    cases v with
    | null => exact absurd hv (hnull a rfl)
    | _ => exact congrArg (Except.map some) hread

theorem takes_record {wanted : String} {start a : σ} {fields : List (RecordField σ)}
    {slots : List Slot} {changes : List (σ → σ)} {r : Reading}
    (hfit : ∀ r', r'.room + 1 = r.room → Fitted r' start fields slots changes)
    (hnames : (slots.map Slot.name).Nodup) (hchanges : Independent changes)
    (hresult : changeAll changes start = a) :
    Takes (record wanted fields start) a r (.ofSlots slots) (Json.ObjectOf slots) := by
  intro hdepth v hv
  obtain ⟨room, hroom, hdepths⟩ := Json.depth_ofSlots_le_iff.mp hdepth
  have hfields := hfit { r with room := room } hroom.symm
  refine ⟨hroom ▸ hv.legible (hfields.legible hdepths), ?_⟩
  obtain ⟨ms, rfl, hms⟩ := hv
  have hmembers := hfields.ofMembers hdepths hnames hchanges hms
  simp only [Json.toTree, record, enter_of_room hroom, hmembers, hresult, Bind.bind, Except.bind]

section Fields
variable {r : Reading} {start : σ} {fields : List (RecordField σ)} {slots : List Slot}
  {changes : List (σ → σ)} {name : String}

theorem Fitted.required {reader : Reader α} {put : α → σ → σ} {a : α} {s : Slot} (hname : name = s.name)
    (habsent : s.absent? = none) (h : Takes reader a r s.value s.ways)
    (rest : Fitted r start fields slots changes) :
    Fitted r start (requiredField name reader put :: fields) (s :: slots) (put a :: changes) :=
  .cons hname (h.map put) (fun hleft => by simp [habsent] at hleft) rest

theorem Fitted.defaulted {reader : Reader α} {put : α → σ → σ} {a : α} {s : Slot} (hname : name = s.name)
    (habsent : s.absent? = some s.value → put a start = start) (h : Takes reader a r s.value s.ways)
    (rest : Fitted r start fields slots changes) :
    Fitted r start (defaultField name reader put :: fields) (s :: slots) (put a :: changes) :=
  .cons hname (h.map put) (fun hleft => ⟨by simp [defaultField, field], habsent hleft⟩) rest

theorem Fitted.text {put : String → σ → σ} {s : String} (hstart : put "" start = start)
    (rest : Fitted r start fields slots changes) :
    Fitted r start (defaultField name string put :: fields)
      (.exact name (some (.string "")) (.string s) :: slots) (put s :: changes) := by
  refine .defaulted rfl (fun hleft => ?_) (takes_string s r) rest
  have hs : "" = s := Json.string.inj (Option.some.inj hleft)
  rw [← hs, hstart]

theorem Fitted.list {reader : Reader α} {put : List α → σ → σ} {toJson : α → Json}
    {ways : α → Json → Prop} {as : List α} (hstart : put [] start = start)
    (h : ∀ a ∈ as, ∀ r', r'.room + 1 = r.room → Takes reader a r' (toJson a) (ways a))
    (rest : Fitted r start fields slots changes) :
    Fitted r start (defaultField name (list reader) put :: fields)
      (⟨name, some (.array []), .array (as.map toJson), Json.ListOf ways as⟩ :: slots)
      (put as :: changes) := by
  refine .defaulted rfl (fun hleft => ?_) (takes_list h) rest
  have has : [] = as.map toJson := Json.array.inj (Option.some.inj hleft)
  rw [List.map_eq_nil_iff.mp has.symm, hstart]

theorem Fitted.option {reader : Reader α} {put : Option α → σ → σ} {toJson : α → Json}
    {ways : α → Json → Prop} {o : Option α} (hstart : put none start = start)
    (hjson : ∀ a, toJson a ≠ .null) (hnull : ∀ a, ¬ ways a .null)
    (h : ∀ a ∈ o, Takes reader a r (toJson a) (ways a)) (rest : Fitted r start fields slots changes) :
    Fitted r start (defaultField name (optional reader) put :: fields)
      (⟨name, some .null, .ofOption toJson o, Json.OptionOf ways o⟩ :: slots) (put o :: changes) := by
  refine .defaulted rfl (fun hleft => ?_) (takes_optional (fun a _ => hnull a) h) rest
  cases o with
  | none => exact hstart
  | some a => exact absurd (Option.some.inj hleft).symm (hjson a)

theorem Fitted.texts {put : List String → σ → σ} {l : List String} (hstart : put [] start = start)
    (rest : Fitted r start fields slots changes) :
    Fitted r start (defaultField name (Reader.list string) put :: fields)
      (.exact name (some (.array [])) (.strings l) :: slots) (put l :: changes) := by
  refine .defaulted rfl (fun hleft => ?_) ?_ rest
  · have hl : [] = l.map Json.string := Json.array.inj (Option.some.inj hleft)
    rw [List.map_eq_nil_iff.mp hl.symm, hstart]
  · rintro hdepth _ rfl
    exact takes_list (fun s _ r' _ => takes_string s r') hdepth _ (Json.listOf_map fun _ _ => rfl)

theorem Fitted.optionalText {put : Option String → σ → σ} {o : Option String}
    (hstart : put none start = start) (rest : Fitted r start fields slots changes) :
    Fitted r start (defaultField name (optional string) put :: fields)
      (.exact name (some .null) (.ofOption .string o) :: slots) (put o :: changes) := by
  refine .defaulted rfl (fun hleft => ?_) ?_ rest
  · cases o with
    | none => exact hstart
    | some s => exact absurd (Option.some.inj hleft) (by simp [Json.ofOption, Slot.exact])
  · rintro hdepth _ rfl
    exact takes_optional (by simp) (fun s _ => takes_string s r) hdepth _
      (Json.optionOf_ofOption fun _ _ => rfl)

end Fields

end Reader

end AmbientScope
