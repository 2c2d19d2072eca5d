import AmbientScope.Json.Tree
import AmbientScope.Json.Value
import Mathlib.Data.Nat.Digits.Defs

/-!
# Written text

What a reader finds in the text of a value. Characters of a string are escaped one by one and each is read back; digits
end where no digit follows, which is the end of the text or a comma or a closing bracket. So the text is cut into the
tokens that were written, and the tokens are nested as the value was.
-/

set_option autoImplicit false

namespace AmbientScope

namespace Json

/-- A property of all values: of scalars, of arrays if all items have it, of objects if all members have it. -/
@[elab_as_elim]
theorem induction {motive : Json → Prop} (null : motive .null) (bool : ∀ b, motive (.bool b))
    (number : ∀ n, motive (.number n)) (string : ∀ s, motive (.string s))
    (array : ∀ items, (∀ v ∈ items, motive v) → motive (.array items))
    (object : ∀ members, (∀ m ∈ members, motive m.2) → motive (.object members)) (v : Json) :
    motive v := by
  refine @Json.rec motive (fun items => ∀ v ∈ items, motive v) (fun members => ∀ m ∈ members, motive m.2)
    (fun m => motive m.2) null bool number string array object ?_ ?_ ?_ ?_ ?_ v
  · simp
  · exact fun _ _ hv hrest => List.forall_mem_cons.mpr ⟨hv, hrest⟩
  · simp
  · exact fun _ _ hm hrest => List.forall_mem_cons.mpr ⟨hm, hrest⟩
  · exact fun _ _ hv => hv

/-- A whole number as it is read. -/
def numeral (n : Int) : Numeral := NumeralText.value ⟨n < 0, Nat.toDigits 10 n.natAbs, [], none⟩

theorem numeral_natCast {n : Nat} (h : n < UInt64.size) : numeral n = .integer n := by
  have hdigits : Numeral.ofDigits (Nat.toDigits 10 n) = n := Nat.ofDigitChars_ten_toDigits
  simp [numeral, NumeralText.value, hdigits, h]

mutual

/-- The tokens of a value. -/
def tokens : Json → List Token
  | null => [.null]
  | bool b => [.bool b]
  | number n => [.number (numeral n)]
  | string s => [.string (some s)]
  | array items => .openArray :: itemTokens items ++ [.closeArray]
  | object members => .openObject :: memberTokens members ++ [.closeObject]

def itemTokens : List Json → List Token
  | [] => []
  | [v] => v.tokens
  | v :: w :: rest => v.tokens ++ .comma :: itemTokens (w :: rest)

def memberTokens : List (String × Json) → List Token
  | [] => []
  | [(k, v)] => .string (some k) :: .colon :: v.tokens
  | (k, v) :: m :: rest => .string (some k) :: .colon :: v.tokens ++ .comma :: memberTokens (m :: rest)

end

mutual

/-- The tree of a value. -/
def toTree : Json → Tree
  | null => .null
  | bool b => .bool b
  | number n => .number (numeral n)
  | string s => .string (some s)
  | array items => .array (itemTrees items) none
  | object members => .object (memberTrees members) none

def itemTrees : List Json → List Tree
  | [] => []
  | v :: rest => v.toTree :: itemTrees rest

def memberTrees : List (String × Json) → List (Option String × Tree)
  | [] => []
  | (k, v) :: rest => (some k, v.toTree) :: memberTrees rest

end

end Json

namespace Token

/-! ## Numbers -/

/-- What may stand behind a value: nothing, or the comma or bracket that follows it in its container. -/
def Delimits (rest : List Char) : Prop := ∀ c ∈ rest.head?, c = ',' ∨ c = ']' ∨ c = '\x7d'

theorem takeWhile_digits {ds rest : List Char} (hds : ∀ c ∈ ds, c.isDigit = true)
    (hrest : Delimits rest) :
    (ds ++ rest).takeWhile Char.isDigit = ds ∧ (ds ++ rest).dropWhile Char.isDigit = rest := by
  rw [List.takeWhile_append_of_pos hds, List.dropWhile_append_of_pos hds]
  cases rest with
  | nil => simp
  | cons c cs =>
    have hc : c.isDigit = false := by
      rcases hrest c rfl with rfl | rfl | rfl <;> rfl
    simp [hc]

theorem fraction_of_delimits {rest : List Char} (h : Delimits rest) :
    fraction rest = .ok ([], rest) := by
  cases rest with
  | nil => rfl
  | cons c cs => rcases h c rfl with rfl | rfl | rfl <;> rfl

theorem exponent_of_delimits {rest : List Char} (h : Delimits rest) :
    exponent rest = .ok (none, rest) := by
  cases rest with
  | nil => rfl
  | cons c cs => rcases h c rfl with rfl | rfl | rfl <;> rfl

theorem toDigits_head {n : Nat} (h : (Nat.toDigits 10 n).head? = some '0') : n = 0 := by
  induction n using Nat.strongRecOn with
  | ind n ih =>
    rw [Nat.toDigits_eq_if (by omega)] at h
    split at h
    · rename_i hlt
      simpa [Nat.digitChar_eq_zero] using h
    · rename_i hge
      obtain ⟨d, ds, hds⟩ := List.exists_cons_of_ne_nil (Nat.toDigits_ne_nil (n := n / 10) (b := 10))
      have hzero := ih (n / 10) (by omega) (by simpa [hds] using h)
      omega

/-- The digits of a number are written without zeros in front. -/
theorem whole_toDigits (n : Nat) {rest : List Char} (h : Delimits rest) :
    whole (Nat.toDigits 10 n ++ rest) = .ok (Nat.toDigits 10 n, rest) := by
  have hall : ∀ c ∈ Nat.toDigits 10 n, c.isDigit = true :=
    fun c hc => Nat.isDigit_of_mem_toDigits (by omega) (by omega) hc
  obtain ⟨htake, hdrop⟩ := takeWhile_digits hall h
  have hdigits : digits (Nat.toDigits 10 n ++ rest) = .ok (Nat.toDigits 10 n, rest) := by
    simp [digits, htake, hdrop, Nat.toDigits_ne_nil]
  have hzero : ¬ ((Nat.toDigits 10 n).head? = some '0' ∧ 1 < (Nat.toDigits 10 n).length) := by
    rintro ⟨hhead, hlength⟩
    obtain rfl := toDigits_head hhead
    exact absurd hlength (by decide)
  simp only [whole, hdigits, Bind.bind, Except.bind, if_neg hzero]

theorem numberToken_toDigits (negative : Bool) (n : Nat) {rest : List Char} (h : Delimits rest) :
    numberToken negative (Nat.toDigits 10 n ++ rest) =
      (number (NumeralText.value ⟨negative, Nat.toDigits 10 n, [], none⟩), rest) := by
  simp only [numberToken, numeral, whole_toDigits n h, fraction_of_delimits h, exponent_of_delimits h,
    Bind.bind, Except.bind]

theorem isBlank_digit {c : Char} (h : c.isDigit = true) : isBlank c = false := by
  rw [Bool.eq_false_iff]
  intro hblank
  simp only [isBlank, Bool.or_eq_true, beq_iff_eq] at hblank
  rcases hblank with ((rfl | rfl) | rfl) | rfl <;> exact absurd h (by decide)

theorem lexeme_digit {c : Char} {cs : List Char} (h : c.isDigit = true) :
    lexeme c cs = numberToken false (c :: cs) := by
  have hne (d : Char) (hd : d.isDigit = false) : c ≠ d := by
    rintro rfl
    exact absurd h (by simp [hd])
  simp [lexeme, h, hne '[' rfl, hne ']' rfl, hne '\x7b' rfl, hne '\x7d' rfl, hne ',' rfl, hne ':' rfl,
    hne '"' rfl, hne 'n' rfl, hne 't' rfl, hne 'f' rfl, hne '-' rfl]

theorem scan_writtenInt (n : Int) {rest : List Char} (h : Delimits rest) :
    scan (Json.writtenInt n ++ rest) = .number (Json.numeral n) :: scan rest := by
  unfold Json.writtenInt
  split
  · rename_i hneg
    rw [List.cons_append, scan]
    simp [isBlank, lexeme, numberToken_toDigits true n.natAbs h, Json.numeral, hneg]
  · rename_i hpos
    obtain ⟨d, ds, hds⟩ := List.exists_cons_of_ne_nil
      (Nat.toDigits_ne_nil (n := n.natAbs) (b := 10))
    have hdigit : d.isDigit = true :=
      Nat.isDigit_of_mem_toDigits (b := 10) (n := n.natAbs) (by omega) (by omega) (by simp [hds])
    have hnumber := numberToken_toDigits false n.natAbs h
    rw [hds, List.cons_append] at hnumber ⊢
    rw [scan, isBlank_digit hdigit, lexeme_digit hdigit, hnumber, Json.numeral, hds]
    simp [hpos]

/-! ## Strings -/

theorem hex4?_digits : ∀ n < 32, hex4? (Nat.digitChar (n >>> 12 % 16)) (Nat.digitChar (n >>> 8 % 16))
    (Nat.digitChar (n >>> 4 % 16)) (Nat.digitChar (n >>> 0 % 16)) = some n := by
  decide

theorem stringRest_plain (p : Partial) {c : Char} (hquote : c ≠ '"') (hslash : c ≠ '\\')
    (hcontrol : ¬ c.toNat < 32) (cs : List Char) : stringRest p (c :: cs) = stringRest (p.char c) cs := by
  rw [stringRest.eq_def]
  split <;> simp_all

theorem stringRest_jsonChar (rev : List Char) (c : Char) (cs : List Char) :
    stringRest (.text rev none) (Quoted.jsonChar c ++ cs) = stringRest (.text (c :: rev) none) cs := by
  unfold Quoted.jsonChar
  split
  · rfl
  · rfl
  · rfl
  · rfl
  · rfl
  · rfl
  · rfl
  · rename_i hquote hslash _ _ _ _ _
    split
    · rename_i hcontrol
      have hunit : Partial.unit c.toNat (.text rev none) = .text (c :: rev) none := by
        have hlead : ¬ (0xD800 ≤ c.toNat ∧ c.toNat < 0xDC00) := by omega
        have htrail : ¬ (0xDC00 ≤ c.toNat ∧ c.toNat < 0xE000) := by omega
        rw [Partial.unit, if_neg hlead, if_neg htrail, Char.ofNat_toNat]
      simp only [Quoted.hex4, List.map_cons, List.map_nil, List.cons_append, List.nil_append]
      rw [stringRest, hex4?_digits _ hcontrol]
      simp only [hunit]
    · rename_i hcontrol
      exact stringRest_plain _ hquote hslash hcontrol cs

theorem stringRest_text (rev cs rest : List Char) :
    stringRest (.text rev none) (cs.flatMap Quoted.jsonChar ++ '"' :: rest) =
      (string (some (String.ofList (rev.reverse ++ cs))), rest) := by
  induction cs generalizing rev with
  | nil => simp [stringRest, Partial.finish]
  | cons c cs ih =>
    rw [List.flatMap_cons, List.append_assoc, stringRest_jsonChar, ih]
    simp

theorem scan_json (s : String) (rest : List Char) :
    scan (Quoted.json s ++ rest) = .string (some s) :: scan rest := by
  have htext := stringRest_text [] s.toList rest
  rw [Quoted.json, List.append_assoc, List.cons_append, List.singleton_append, scan]
  simp [isBlank, lexeme, Partial.start, htext]

/-! ## Values -/

theorem scan_punctuation {c : Char} {t : Token} (cs : List Char) (hblank : isBlank c = false)
    (h : lexeme c cs = (t, cs)) : scan (c :: cs) = t :: scan cs := by
  rw [scan, hblank, h]
  rfl

theorem scan_items (items : List Json)
    (hitems : ∀ v ∈ items, ∀ rest, Delimits rest → scan (v.chars ++ rest) = v.tokens ++ scan rest)
    (rest : List Char) :
    scan (Json.itemChars items ++ ']' :: rest) = Json.itemTokens items ++ .closeArray :: scan rest := by
  induction items with
  | nil => exact scan_punctuation rest rfl rfl
  | cons v items ih =>
    obtain ⟨hv, hrest⟩ := List.forall_mem_cons.mp hitems
    cases items with
    | nil =>
      rw [Json.itemChars, Json.itemTokens, hv _ (by simp [Delimits])]
      rw [scan_punctuation rest rfl rfl]
    | cons w items =>
      rw [Json.itemChars, Json.itemTokens, List.append_assoc, hv _ (by simp [Delimits]),
        List.cons_append, scan_punctuation _ rfl rfl, ih hrest]
      simp

theorem scan_members (members : List (String × Json))
    (hmembers : ∀ m ∈ members, ∀ rest, Delimits rest →
      scan (m.2.chars ++ rest) = m.2.tokens ++ scan rest)
    (rest : List Char) :
    scan (Json.memberChars members ++ '\x7d' :: rest) =
      Json.memberTokens members ++ .closeObject :: scan rest := by
  induction members with
  | nil => exact scan_punctuation rest rfl rfl
  | cons m members ih =>
    obtain ⟨hm, hrest⟩ := List.forall_mem_cons.mp hmembers
    obtain ⟨k, v⟩ := m
    cases members with
    | nil =>
      rw [Json.memberChars, Json.memberTokens, List.append_assoc, scan_json, List.cons_append,
        scan_punctuation _ rfl rfl, hm _ (by simp [Delimits]), scan_punctuation rest rfl rfl]
      rfl
    | cons m members =>
      rw [Json.memberChars, Json.memberTokens]
      simp only [List.append_assoc, List.cons_append]
      rw [scan_json, scan_punctuation _ rfl rfl, hm _ (by simp [Delimits]),
        scan_punctuation _ rfl rfl, ih hrest]

/-- A value is cut into its tokens. -/
theorem scan_chars (v : Json) : ∀ rest, Delimits rest → scan (v.chars ++ rest) = v.tokens ++ scan rest := by
  induction v using Json.induction with
  | null =>
    intro rest _
    simp [Json.chars, Json.tokens, scan, isBlank, lexeme, word]
  | bool b =>
    intro rest _
    cases b <;> simp [Json.chars, Json.tokens, scan, isBlank, lexeme, word]
  | number n => exact fun rest h => scan_writtenInt n h
  | string s => exact fun rest _ => scan_json s rest
  | array items ih =>
    intro rest _
    simp only [Json.chars, Json.tokens, List.cons_append, List.append_assoc, List.nil_append]
    rw [scan_punctuation _ rfl rfl, scan_items items ih]
  | object members ih =>
    intro rest _
    simp only [Json.chars, Json.tokens, List.cons_append, List.append_assoc, List.nil_append]
    rw [scan_punctuation _ rfl rfl, scan_members members ih]

end Token

namespace Tree.State
open Token

section Steps
variable (t : Tree) (items : List Tree) (members : List (Option String × Tree)) (key : Option String)
  (outer : List Frame) (rest : List Token)

theorem run_comma_array : run (complete t (.array items :: outer)) (.comma :: rest) =
    run (.wantValue (.array (t :: items) :: outer)) rest := rfl

theorem run_closeArray : run (complete t (.array items :: outer)) (.closeArray :: rest) =
    run (complete (.array (t :: items).reverse none) outer) rest := rfl

theorem run_key (name : Option String) :
    run (.wantKey members outer) (.string name :: .colon :: rest) =
      run (.wantValue (.object members name :: outer)) rest := rfl

theorem run_comma_object : run (complete t (.object members key :: outer)) (.comma :: rest) =
    run (.wantKey ((key, t) :: members) outer) rest := rfl

theorem run_closeObject : run (complete t (.object members key :: outer)) (.closeObject :: rest) =
    run (complete (.object ((key, t) :: members).reverse none) outer) rest := rfl

end Steps

theorem run_items (v : Json) (items : List Json)
    (hitems : ∀ w ∈ v :: items, ∀ outer rest,
      run (.wantValue outer) (w.tokens ++ rest) = run (complete w.toTree outer) rest)
    (before : List Tree) (outer : List Frame) (rest : List Token) :
    run (.wantValue (.array before :: outer)) (Json.itemTokens (v :: items) ++ .closeArray :: rest) =
      run (complete (.array (before.reverse ++ Json.itemTrees (v :: items)) none) outer) rest := by
  induction items generalizing v before with
  | nil =>
    obtain ⟨hv, _⟩ := List.forall_mem_cons.mp hitems
    rw [Json.itemTokens, hv, run_closeArray, List.reverse_cons]
    rfl
  | cons w items ih =>
    obtain ⟨hv, hrest⟩ := List.forall_mem_cons.mp hitems
    rw [Json.itemTokens, List.append_assoc, hv, List.cons_append, run_comma_array, ih w hrest,
      List.reverse_cons, List.append_assoc]
    rfl

theorem run_members (m : String × Json) (members : List (String × Json))
    (hmembers : ∀ m' ∈ m :: members, ∀ outer rest,
      run (.wantValue outer) (m'.2.tokens ++ rest) = run (complete m'.2.toTree outer) rest)
    (before : List (Option String × Tree)) (outer : List Frame) (rest : List Token) :
    run (.wantKey before outer) (Json.memberTokens (m :: members) ++ .closeObject :: rest) =
      run (complete (.object (before.reverse ++ Json.memberTrees (m :: members)) none) outer) rest := by
  induction members generalizing m before with
  | nil =>
    obtain ⟨hm, _⟩ := List.forall_mem_cons.mp hmembers
    rw [Json.memberTokens, List.cons_append, List.cons_append, run_key, hm, run_closeObject,
      List.reverse_cons]
    rfl
  | cons m' members ih =>
    obtain ⟨hm, hrest⟩ := List.forall_mem_cons.mp hmembers
    simp only [Json.memberTokens, List.cons_append, List.append_assoc]
    rw [run_key, hm, run_comma_object, ih m' hrest, List.reverse_cons, List.append_assoc]
    rfl

/-- The tokens of a value are nested as the value is. -/
theorem run_tokens (v : Json) : ∀ outer rest,
    run (.wantValue outer) (v.tokens ++ rest) = run (complete v.toTree outer) rest := by
  induction v using Json.induction with
  | null => exact fun _ _ => rfl
  | bool b => exact fun _ _ => rfl
  | number n => exact fun _ _ => rfl
  | string s => exact fun _ _ => rfl
  | array items ih =>
    intro outer rest
    cases items with
    | nil => rfl
    | cons v items =>
      -- no value begins with a closing bracket, so the first item is read like any other
      have hfirst : run (.wantValue outer) ((Json.array (v :: items)).tokens ++ rest) =
          run (.wantValue (.array [] :: outer))
            (Json.itemTokens (v :: items) ++ .closeArray :: rest) := by
        simp only [Json.tokens, List.cons_append, List.append_assoc, List.nil_append]
        cases items <;> cases v <;> rfl
      rw [hfirst, run_items v items ih]
      rfl
  | object members ih =>
    intro outer rest
    cases members with
    | nil => rfl
    | cons m members =>
      have hfirst : run (.wantValue outer) ((Json.object (m :: members)).tokens ++ rest) =
          run (.wantKey [] outer) (Json.memberTokens (m :: members) ++ .closeObject :: rest) := by
        simp only [Json.tokens, List.cons_append, List.append_assoc, List.nil_append]
        cases members <;> rfl
      rw [hfirst, run_members m members ih]
      rfl

end Tree.State

/-- Nothing is lost between a value and the tree of its text. -/
theorem Tree.ofText_compact (v : Json) : Tree.ofText v.compact = (v.toTree, []) := by
  have hscan := Token.scan_chars v [] (by simp [Token.Delimits])
  have hrun := State.run_tokens v [] []
  rw [List.append_nil] at hscan hrun
  rw [Tree.ofText, Tree.ofTokens, Json.compact, String.toList_ofList, hscan]
  simpa [Token.scan, State.complete, State.run] using hrun

end AmbientScope
