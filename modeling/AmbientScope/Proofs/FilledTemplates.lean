import AmbientScope.Diagnostic.Basic
import Mathlib.Data.List.Induction

/-!
# Filled templates

The arguments of a template are put in one after the other, and each search goes through the text that the earlier
arguments have left, these arguments included. Only an opening brace begins a place. So an argument without one is
passed over, and so is a place that waits for a later argument, because its number ends at the closing brace and cannot
be mistaken for another. The arguments might as well be put in all at once.
-/

set_option autoImplicit false

namespace AmbientScope

namespace Substring

@[simp] theorem replaceAll_nil (word value : List Char) : replaceAll word value [] = [] := rfl

theorem replaceFrom_append (word value before rest : List Char) :
    replaceFrom word value before.length (before ++ rest) = replaceAll word value rest := by
  induction before with
  | nil => rfl
  | cons d ds ih => exact ih

/-- An occurrence in front is replaced, and the search goes on behind it. -/
theorem replaceAll_word_append (c : Char) (cs value rest : List Char) :
    replaceAll (c :: cs) value (c :: cs ++ rest) = value ++ replaceAll (c :: cs) value rest := by
  have hfront : (c :: cs).isPrefixOf (c :: (cs ++ rest)) = true :=
    List.isPrefixOf_iff_prefix.mpr (List.prefix_append (c :: cs) rest)
  rw [replaceAll, List.cons_append, replaceFrom, if_pos hfront]
  exact congrArg (value ++ ·) (replaceFrom_append (c :: cs) value cs rest)

section Passed
variable {c : Char} {cs before rest : List Char} (value : List Char)

theorem replaceAll_cons {d : Char} (hfront : ¬ (c :: cs) <+: d :: rest) :
    replaceAll (c :: cs) value (d :: rest) = d :: replaceAll (c :: cs) value rest := by
  rw [replaceAll, replaceFrom, if_neg (mt List.isPrefixOf_iff_prefix.mp hfront), replaceAll]

/-- No occurrence begins in a text without the first character of the word. -/
theorem replaceAll_append (hbefore : c ∉ before) :
    replaceAll (c :: cs) value (before ++ rest) = before ++ replaceAll (c :: cs) value rest := by
  induction before with
  | nil => rfl
  | cons d ds ih =>
    obtain ⟨hd, hds⟩ := not_or.mp (mt List.mem_cons.mpr hbefore)
    have hfront : ¬ (c :: cs) <+: d :: (ds ++ rest) := fun h => hd (List.cons_prefix_cons.mp h).1
    rw [List.cons_append, replaceAll_cons value hfront, ih hds, List.cons_append]

end Passed

end Substring

namespace Template

/-! ## Places -/

section Places
variable {i j : Nat} {rest : List Char}

theorem takeWhile_toDigits (i : Nat) (rest : List Char) :
    (Nat.toDigits 10 i ++ '\x7d' :: rest).takeWhile Char.isDigit = Nat.toDigits 10 i := by
  have hdigits : ∀ d ∈ Nat.toDigits 10 i, d.isDigit = true :=
    fun d hd => Nat.isDigit_of_mem_toDigits (by decide) (by decide) hd
  rw [List.takeWhile_append_of_pos hdigits, List.takeWhile_cons_of_neg (by decide), List.append_nil]

/-- A place is told by its number. -/
theorem eq_of_prefix_placeholder (h : placeholder i <+: placeholder j ++ rest) : i = j := by
  obtain ⟨more, hmore⟩ := h
  have htail : Nat.toDigits 10 i ++ '\x7d' :: more = Nat.toDigits 10 j ++ '\x7d' :: rest := by
    simpa [placeholder] using hmore
  have hdigits : Nat.toDigits 10 i = Nat.toDigits 10 j := by
    rw [← takeWhile_toDigits i more, htail, takeWhile_toDigits]
  calc
    i = Nat.ofDigitChars 10 (Nat.toDigits 10 i) 0 := Nat.ofDigitChars_ten_toDigits.symm
    _ = Nat.ofDigitChars 10 (Nat.toDigits 10 j) 0 := by rw [hdigits]
    _ = j := Nat.ofDigitChars_ten_toDigits

/-- Behind its first brace a place has no other opening one. -/
theorem brace_not_mem_tail : '\x7b' ∉ Nat.toDigits 10 i ++ ['\x7d'] := by
  intro hmem
  rcases List.mem_append.mp hmem with h | h
  · exact absurd (Nat.isDigit_of_mem_toDigits (by decide) (by decide) h) (by decide)
  · exact absurd h (by decide)

theorem replaceAll_placeholder (value : List Char) :
    Substring.replaceAll (placeholder i) value (placeholder i ++ rest) =
      value ++ Substring.replaceAll (placeholder i) value rest :=
  Substring.replaceAll_word_append ..

theorem replaceAll_placeholder_of_ne (value : List Char) (h : i ≠ j) :
    Substring.replaceAll (placeholder i) value (placeholder j ++ rest) =
      placeholder j ++ Substring.replaceAll (placeholder i) value rest := by
  have hfront : ¬ placeholder i <+: placeholder j ++ rest := fun hp => h (eq_of_prefix_placeholder hp)
  calc
    Substring.replaceAll (placeholder i) value (placeholder j ++ rest)
    _ = '\x7b' :: Substring.replaceAll (placeholder i) value (Nat.toDigits 10 j ++ ['\x7d'] ++ rest) :=
      Substring.replaceAll_cons value hfront
    _ = placeholder j ++ Substring.replaceAll (placeholder i) value rest :=
      congrArg ('\x7b' :: ·) (Substring.replaceAll_append value brace_not_mem_tail)

/-- An echo says nothing but its argument. -/
theorem debugEcho_fill (text : String) : debugEcho.fill [text] = text := by
  have hplace : debugEcho.text.toList = placeholder 0 ++ [] := by decide
  simp only [fill, fillFrom, List.map_cons, List.map_nil, hplace]
  rw [replaceAll_placeholder, Substring.replaceAll_nil, List.append_nil, String.ofList_toList]

end Places

/-! ## All arguments at once -/

/-- A part of a template: a character that stands for itself, or the place with a number. -/
inductive Part where
  | letter (c : Char) (plain : c ≠ '\x7b')
  | place (number : Nat)

namespace Part

/-- A part as it is written; the number of a place is decimal, without zeros in front. -/
def text : Part → List Char
  | letter c _ => [c]
  | place i => '\x7b' :: (toString i).toList ++ ['\x7d']

/-- A part with all arguments put in; a place without an argument stays. -/
def filled (args : List String) : Part → List Char
  | letter c _ => [c]
  | place i =>
    match args[i]? with
    | some arg => arg.toList
    | none => text (place i)

theorem text_place (i : Nat) : text (place i) = placeholder i := by
  simp [text, placeholder]

theorem filled_nil : filled [] = text := by
  funext p
  cases p <;> rfl

section Filled
variable {args : List String} {i : Nat}

theorem filled_of_le (h : args.length ≤ i) : filled args (place i) = placeholder i := by
  rw [← text_place, filled, List.getElem?_eq_none h]

theorem filled_of_getElem? {arg : String} (h : args[i]? = some arg) :
    filled args (place i) = arg.toList := by
  rw [filled, h]

variable (hargs : ∀ arg ∈ args, '\x7b' ∉ arg.toList)
include hargs

/-- The next argument goes to its own place and nowhere else. -/
theorem replaceAll_filled (next : String) (p : Part) (rest : List Char) :
    Substring.replaceAll (placeholder args.length) next.toList (p.filled args ++ rest) =
      p.filled (args ++ [next]) ++
        Substring.replaceAll (placeholder args.length) next.toList rest := by
  cases p with
  | letter c plain => exact Substring.replaceAll_append _ (by simpa [filled] using plain.symm)
  | place i =>
    -- its argument has come, comes now, or is still to come
    rcases Nat.lt_trichotomy i args.length with hlt | rfl | hgt
    · have hold : args[i]? = some args[i] := List.getElem?_eq_getElem hlt
      have hnew : (args ++ [next])[i]? = some args[i] := by rw [List.getElem?_append_left hlt, hold]
      rw [filled_of_getElem? hold, filled_of_getElem? hnew]
      exact Substring.replaceAll_append _ (hargs _ (List.getElem_mem hlt))
    · have hnew : (args ++ [next])[args.length]? = some next := by simp
      rw [filled_of_le (Nat.le_refl _), filled_of_getElem? hnew, replaceAll_placeholder]
    · have hnew : (args ++ [next]).length ≤ i := by rwa [List.length_append]
      rw [filled_of_le (Nat.le_of_lt hgt), filled_of_le hnew, replaceAll_placeholder_of_ne _ (Nat.ne_of_lt hgt)]

theorem replaceAll_parts (next : String) (parts : List Part) :
    Substring.replaceAll (placeholder args.length) next.toList (parts.flatMap (filled args)) =
      parts.flatMap (filled (args ++ [next])) := by
  induction parts with
  | nil => rfl
  | cons p parts ih =>
    rw [List.flatMap_cons, List.flatMap_cons, replaceAll_filled hargs, ih]

end Filled

end Part

theorem fillFrom_append (i : Nat) (args more : List (List Char)) (text : List Char) :
    fillFrom i (args ++ more) text = fillFrom (i + args.length) more (fillFrom i args text) := by
  induction args generalizing i text with
  | nil => rfl
  | cons arg args ih =>
    rw [List.cons_append, fillFrom, fillFrom, ih, List.length_cons, Nat.add_assoc, Nat.add_comm 1]

theorem fillFrom_parts {args : List String} (hargs : ∀ arg ∈ args, '\x7b' ∉ arg.toList)
    (parts : List Part) :
    fillFrom 0 (args.map String.toList) (parts.flatMap Part.text) = parts.flatMap (Part.filled args) := by
  -- the arguments so far have been put in, and what is left to do is the last one
  induction args using List.reverseRecOn with
  | nil => rw [Part.filled_nil]; rfl
  | append_singleton args next ih =>
    have hearlier : ∀ arg ∈ args, '\x7b' ∉ arg.toList :=
      fun arg harg => hargs arg (List.mem_append_left [next] harg)
    rw [List.map_append, fillFrom_append, ih hearlier, List.map_singleton, fillFrom, fillFrom,
      List.length_map, Nat.zero_add, Part.replaceAll_parts hearlier]

/-- If opening braces stand only in the places of a template and in no argument, then each place whose number has an
argument becomes this argument, letter for letter, and all other text stays as it is. -/
theorem fill_all_at_once (t : Template) (parts : List Part) (args : List String)
    (htext : t.text.toList = parts.flatMap Part.text)
    (hargs : ∀ arg ∈ args, '\x7b' ∉ arg.toList) :
    t.fill args = String.ofList (parts.flatMap (Part.filled args)) := by
  rw [fill, htext, fillFrom_parts hargs]

/-- Places out of order, one of them twice, and two with two digits. -/
def scattered : Template := ⟨9004, .message, "\x7b10\x7d: \x7b1\x7d\x7b0\x7d\x7b1\x7d \x7b11\x7d"⟩

def scatteredParts : List Part :=
  [.place 10, .letter ':' (by decide), .letter ' ' (by decide), .place 1, .place 0, .place 1,
    .letter ' ' (by decide), .place 11]

/-- The eleventh argument is the last one, so the place with the number eleven stays. -/
def elevenTexts : List String := ["1", "0", "c", "d", "e", "f", "g", "h", "i", "j", "k"]

theorem fill_all_at_once_scattered :
    scattered.text.toList = scatteredParts.flatMap Part.text ∧
      (∀ arg ∈ elevenTexts, '\x7b' ∉ arg.toList) ∧
      scattered.fill elevenTexts = "k: 010 \x7b11\x7d" := by
  have htext : scattered.text.toList = scatteredParts.flatMap Part.text := by decide
  have hargs : ∀ arg ∈ elevenTexts, '\x7b' ∉ arg.toList := by decide
  refine ⟨htext, hargs, ?_⟩
  rw [fill_all_at_once scattered scatteredParts elevenTexts htext hargs]
  decide

-- an argument that is a place itself is filled in its turn
example : fillFrom 0 [placeholder 1, ['x']] (placeholder 0) = ['x'] := by decide

end Template

end AmbientScope
