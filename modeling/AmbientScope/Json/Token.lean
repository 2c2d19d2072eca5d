import AmbientScope.Json.Numeral

/-!
# Tokens

A text is cut into tokens from left to right. Where it breaks off, the last token carries the fault, with two
verdicts: one for a reader that wants the value and one for a reader that skips it. They differ because a
skipped value is held only to its outer form: a number may lie out of range, the halves of a surrogate pair
may stand alone, and an unfinished number is malformed rather than cut short.
-/

set_option autoImplicit false

namespace AmbientScope

inductive Fault where
  | endOfText
  | malformed
  deriving DecidableEq, Inhabited

/-- A fault as seen by a reader of the value and by one that skips it. -/
structure Break where
  whenRead : Fault
  whenSkipped : Fault
  deriving DecidableEq, Inhabited

namespace Break

def both (f : Fault) : Break := ⟨f, f⟩

def endOfText : Break := both .endOfText

def malformed : Break := both .malformed

/-- The fault of a numeral that lacks a digit before `rest`. -/
def missingDigit (rest : List Char) : Break :=
  if rest.isEmpty then ⟨.endOfText, .malformed⟩ else malformed

end Break

inductive Token where
  | openArray | closeArray | openObject | closeObject | comma | colon
  | null
  | bool (value : Bool)
  | number (value : Numeral)
  /-- A closed string; no text when an unpaired surrogate makes it unreadable. -/
  | string (text : Option String)
  | cutString (fault : Break)
  | cutValue (fault : Break)
  deriving Inhabited

namespace Token

def isBlank (c : Char) : Bool := c == ' ' || c == '\t' || c == '\n' || c == '\r'

/-- The rest of a word whose first character has been seen. -/
def word (found : Token) : (wanted cs : List Char) → Token × List Char
  | [], cs => (found, cs)
  | _ :: _, [] => (cutValue .endOfText, [])
  | w :: ws, c :: cs => if c = w then word found ws cs else (cutValue .malformed, [])

/-! ## Numbers -/

/-- A nonempty run of digits and what follows it. -/
def digits (cs : List Char) : Except Break (List Char × List Char) :=
  let ds := cs.takeWhile Char.isDigit
  let rest := cs.dropWhile Char.isDigit
  if ds.isEmpty then .error (Break.missingDigit rest) else .ok (ds, rest)

/-- The part of a numeral before point and exponent: a zero stands alone. -/
def whole (cs : List Char) : Except Break (List Char × List Char) := do
  let (ds, rest) ← digits cs
  if ds.head? = some '0' ∧ 1 < ds.length then .error .malformed else .ok (ds, rest)

def fraction : List Char → Except Break (List Char × List Char)
  | '.' :: cs => digits cs
  | cs => .ok ([], cs)

/-- A sign, which only an exponent may have in both forms. -/
def exponentSign : List Char → Bool × List Char
  | '-' :: cs => (true, cs)
  | '+' :: cs => (false, cs)
  | cs => (false, cs)

def exponent : List Char → Except Break (Option (Bool × List Char) × List Char)
  | [] => .ok (none, [])
  | c :: cs =>
    if c = 'e' ∨ c = 'E' then do
      let (negative, cs) := exponentSign cs
      let (ds, rest) ← digits cs
      .ok (some (negative, ds), rest)
    else .ok (none, c :: cs)

def numeral (negative : Bool) (cs : List Char) : Except Break (NumeralText × List Char) := do
  let (w, cs) ← whole cs
  let (f, cs) ← fraction cs
  let (e, cs) ← exponent cs
  .ok (⟨negative, w, f, e⟩, cs)

def numberToken (negative : Bool) (cs : List Char) : Token × List Char :=
  match numeral negative cs with
  | .ok (t, rest) => (number t.value, rest)
  | .error b => (cutValue b, [])

/-! ## Strings -/

def simpleEscape? (c : Char) : Option Char :=
  match c with
  | '"' => some '"'
  | '\\' => some '\\'
  | '/' => some '/'
  | 'b' => some '\x08'
  | 'f' => some '\x0c'
  | 'n' => some '\n'
  | 'r' => some '\r'
  | 't' => some '\t'
  | _ => none

def hexDigit? (c : Char) : Option Nat :=
  if c.isDigit then some (c.toNat - 48)
  else if 'a' ≤ c ∧ c ≤ 'f' then some (c.toNat - 87)
  else if 'A' ≤ c ∧ c ≤ 'F' then some (c.toNat - 55)
  else none

def hex4? (a b c d : Char) : Option Nat := do
  let a ← hexDigit? a
  let b ← hexDigit? b
  let c ← hexDigit? c
  let d ← hexDigit? d
  pure (((a * 16 + b) * 16 + c) * 16 + d)

/-- How much of a string has been read: its characters, latest first, and the first half of a surrogate
pair that waits for the second. An unreadable string has no characters. -/
inductive Partial where
  | text (rev : List Char) (lead : Option Nat)
  | unreadable

namespace Partial

def start : Partial := .text [] none

def char (c : Char) : Partial → Partial
  | .text rev none => .text (c :: rev) none
  | _ => .unreadable

def unit (n : Nat) : Partial → Partial
  | .text rev none =>
    if 0xD800 ≤ n ∧ n < 0xDC00 then .text rev (some n)
    else if 0xDC00 ≤ n ∧ n < 0xE000 then .unreadable
    else .text (Char.ofNat n :: rev) none
  | .text rev (some lead) =>
    if 0xDC00 ≤ n ∧ n < 0xE000 then
      .text (Char.ofNat (0x10000 + (lead - 0xD800) * 0x400 + (n - 0xDC00)) :: rev) none
    else .unreadable
  | .unreadable => .unreadable

def finish : Partial → Option String
  | .text rev none => some (String.ofList rev.reverse)
  | _ => none

/-- A fault found at this point: a reader meets an unpaired surrogate first. -/
def fault (f : Fault) : Partial → Break
  | .text _ _ => .both f
  | .unreadable => ⟨.malformed, f⟩

end Partial

/-- The fault of an escape with fewer than four characters after it. -/
def shortEscape (rest : List Char) : Fault :=
  if 4 ≤ (String.ofList rest).utf8ByteSize then .malformed else .endOfText

/-- The rest of a string whose opening quote has been seen. -/
def stringRest (p : Partial) : List Char → Token × List Char
  | [] => (cutString (p.fault .endOfText), [])
  | '"' :: cs => (string p.finish, cs)
  | '\\' :: 'u' :: a :: b :: c :: d :: cs =>
    match hex4? a b c d with
    | some n => stringRest (p.unit n) cs
    | none => (cutString (p.fault .malformed), [])
  | '\\' :: 'u' :: cs => (cutString (p.fault (shortEscape cs)), [])
  | '\\' :: c :: cs =>
    match simpleEscape? c with
    | some e => stringRest (p.char e) cs
    | none => (cutString (p.fault .malformed), [])
  | ['\\'] => (cutString (p.fault .endOfText), [])
  | c :: cs =>
    if c.toNat < 32 then (cutString (p.fault .malformed), []) else stringRest (p.char c) cs

/-! ## All tokens of a text -/

/-- The token that starts with `c`, and what follows it; nothing follows a broken token. -/
def lexeme (c : Char) (cs : List Char) : Token × List Char :=
  if c = '[' then (openArray, cs)
  else if c = ']' then (closeArray, cs)
  else if c = '\x7b' then (openObject, cs)
  else if c = '\x7d' then (closeObject, cs)
  else if c = ',' then (comma, cs)
  else if c = ':' then (colon, cs)
  else if c = '"' then stringRest .start cs
  else if c = 'n' then word null ['u', 'l', 'l'] cs
  else if c = 't' then word (bool true) ['r', 'u', 'e'] cs
  else if c = 'f' then word (bool false) ['a', 'l', 's', 'e'] cs
  else if c = '-' then numberToken true cs
  else if c.isDigit then numberToken false (c :: cs)
  else (cutValue .malformed, [])

theorem word_length_le (found : Token) (wanted cs : List Char) :
    (word found wanted cs).2.length ≤ cs.length := by
  induction wanted generalizing cs with
  | nil => simp [word]
  | cons w ws ih =>
    cases cs with
    | nil => simp [word]
    | cons c cs =>
      simp only [word]
      split
      · exact Nat.le_succ_of_le (ih cs)
      · simp

theorem stringRest_length_le (p : Partial) (cs : List Char) :
    (stringRest p cs).2.length ≤ cs.length := by
  fun_induction stringRest p cs <;> simp_all <;> omega

theorem digits_length {cs ds rest : List Char} (h : digits cs = .ok (ds, rest)) :
    rest.length < cs.length := by
  simp only [digits] at h
  split at h
  · cases h
  · next hd =>
    cases h
    have hs := List.takeWhile_append_dropWhile (p := Char.isDigit) (l := cs)
    have hl := congrArg List.length hs
    have hp : 0 < (cs.takeWhile Char.isDigit).length := by
      rw [List.length_pos_iff]; simpa using hd
    simp only [List.length_append] at hl
    omega

theorem whole_length {cs ds rest : List Char} (h : whole cs = .ok (ds, rest)) :
    rest.length < cs.length := by
  unfold whole at h
  cases hd : digits cs with
  | error b => simp [hd, bind, Except.bind] at h
  | ok r =>
    obtain ⟨ds', rest'⟩ := r
    simp only [hd, bind, Except.bind] at h
    split at h
    · cases h
    · cases h; exact digits_length hd

theorem fraction_length {cs ds rest : List Char} (h : fraction cs = .ok (ds, rest)) :
    rest.length ≤ cs.length := by
  unfold fraction at h
  split at h
  · have := digits_length h
    simp only [List.length_cons]
    omega
  · cases h; exact Nat.le_refl _

theorem exponentSign_length (cs : List Char) : (exponentSign cs).2.length ≤ cs.length := by
  unfold exponentSign
  split <;> simp

theorem exponent_length {cs rest : List Char} {e : Option (Bool × List Char)}
    (h : exponent cs = .ok (e, rest)) : rest.length ≤ cs.length := by
  unfold exponent at h
  split at h
  · cases h; exact Nat.le_refl _
  · next c cs =>
    split at h
    · have hs := exponentSign_length cs
      cases hd : digits (exponentSign cs).2 with
      | error b => simp [hd, bind, Except.bind] at h
      | ok r =>
        simp only [hd, bind, Except.bind] at h
        cases h
        have := digits_length hd
        simp only [List.length_cons]
        omega
    · cases h; exact Nat.le_refl _

theorem numeral_length {negative : Bool} {cs rest : List Char} {t : NumeralText}
    (h : numeral negative cs = .ok (t, rest)) : rest.length < cs.length := by
  unfold numeral at h
  cases hw : whole cs with
  | error b => simp [hw, bind, Except.bind] at h
  | ok w =>
    cases hf : fraction w.2 with
    | error b => simp [hw, hf, bind, Except.bind] at h
    | ok f =>
      cases he : exponent f.2 with
      | error b => simp [hw, hf, he, bind, Except.bind] at h
      | ok e =>
        simp only [hw, hf, he, bind, Except.bind] at h
        cases h
        have := whole_length hw
        have := fraction_length hf
        have := exponent_length he
        omega

theorem numberToken_length_le (negative : Bool) (c : Char) (cs : List Char) :
    (numberToken negative (c :: cs)).2.length ≤ cs.length := by
  unfold numberToken
  split
  · next h => exact Nat.le_of_lt_succ (numeral_length h)
  · simp

theorem numberToken_length_le_self (negative : Bool) (cs : List Char) :
    (numberToken negative cs).2.length ≤ cs.length := by
  cases cs with
  | nil => simp [numberToken, numeral, whole, digits, bind, Except.bind]
  | cons c cs => exact Nat.le_succ_of_le (numberToken_length_le negative c cs)

theorem ite_length_le {p : Prop} [Decidable p] {a b : Token × List Char} {n : Nat}
    (ha : a.2.length ≤ n) (hb : b.2.length ≤ n) : (if p then a else b).2.length ≤ n := by
  split <;> assumption

theorem lexeme_length_le (c : Char) (cs : List Char) : (lexeme c cs).2.length ≤ cs.length := by
  have same : cs.length ≤ cs.length := Nat.le_refl _
  exact ite_length_le same <| ite_length_le same <| ite_length_le same <| ite_length_le same <|
    ite_length_le same <| ite_length_le same <| ite_length_le (stringRest_length_le _ _) <|
    ite_length_le (word_length_le _ _ _) <| ite_length_le (word_length_le _ _ _) <|
    ite_length_le (word_length_le _ _ _) <| ite_length_le (numberToken_length_le_self _ _) <|
    ite_length_le (numberToken_length_le _ _ _) (Nat.zero_le _)

/-- All tokens of a text; only the last can be broken. -/
def scan : List Char → List Token
  | [] => []
  | c :: cs =>
    if isBlank c then scan cs
    else (lexeme c cs).1 :: scan (lexeme c cs).2
termination_by cs => cs.length
decreasing_by
  · simp
  · have := lexeme_length_le c cs
    simp only [List.length_cons]
    omega

end Token

end AmbientScope
