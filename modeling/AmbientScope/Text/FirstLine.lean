import AmbientScope.Text.Alphanumeric
import AmbientScope.Text.Columns
import AmbientScope.Text.ControlCode
import AmbientScope.Text.LineBreak
import AmbientScope.Text.LineClass.Table

/-!
# The first line of a report

A report sets a message in lines of a given width, and `firstLine` is what it shows first. A line ends at
a line feed, or before the first word that does not fit; a word too long for any line goes to the
next one too. Spaces at the end of a line are not shown, and one carriage return there belongs to the line's end.
-/

set_option autoImplicit false

namespace AmbientScope.FirstLine

/-! ## Words -/

/-- A character that is shown, with the control codes before it. -/
structure Glyph where
  codes : List Char
  char : Char
  deriving DecidableEq, Inhabited

def Glyph.text (g : Glyph) : List Char := g.codes ++ [g.char]

/-- The glyphs of a text, and the control codes after the last one. -/
def glyphs (m : ControlCode) : List Char → List Glyph × List Char
  | [] => ([], [])
  | c :: cs =>
    let (gs, codes) := glyphs (m.next c) cs
    if m.shows c then (⟨[], c⟩ :: gs, codes)
    else
      match gs with
      | [] => ([], c :: codes)
      | g :: gs => ({ g with codes := c :: g.codes } :: gs, codes)

/-- Hyphens, which end a word only within a compound. -/
def isHyphen (c : Char) : Bool := c ∈ ['-', '\u00ad']

/-- For each character, whether a word begins with it. -/
def wordStarts (cs : List Char) : List Bool :=
  List.zipWith (fun starts before => starts && !isHyphen before)
    (LineBreak.breaksFrom .start (cs.map .ofChar)) (' ' :: cs)

/-- The text before the first start of a word, and the words from there on; `codes` end the text. -/
def cut (codes : List Char) : List (Bool × List Char) → List Char × List (List Char)
  | [] => (codes, [])
  | (starts, text) :: rest =>
    let (w, ws) := cut codes rest
    if starts then ([], (text ++ w) :: ws) else (text ++ w, ws)

/-- The last two words as one. -/
def joinLast : List (List Char) → List (List Char)
  | [v, w] => [v ++ w]
  | w :: ws => w :: joinLast ws
  | [] => []

/-- The parts of a word with hyphens between letters or numbers; `before` is in front of it. -/
def compounds (before : Char) : List Char → List (List Char)
  | [] => []
  | [c] => [[c]]
  | c :: next :: rest =>
    match compounds c (next :: rest) with
    | [] => [[c]]
    | w :: ws =>
      if c = '-' && isAlphanumeric before && isAlphanumeric next then [c] :: w :: ws
      else (c :: w) :: ws

/-- The words of a line, each with the spaces after it. If the line ends with a hyphen, its last two words are
one. -/
def words (line : List Char) : List (List Char) :=
  let (gs, codes) := glyphs .outside line
  let shown := gs.map (·.char)
  let (w, ws) := cut codes ((wordStarts shown).zip (gs.map (·.text)))
  let all := if w.isEmpty then ws else w :: ws
  (if shown.getLast?.any isHyphen then joinLast all else all).flatMap (compounds ' ')

/-! ## Filling -/

def width (text : List Char) : Nat :=
  (shownFrom .outside text).foldr (fun c n => Columns.ofChar c + n) 0

def trimSpaces (text : List Char) : List Char := (text.reverse.dropWhile (· = ' ')).reverse

/-- As many words as fit behind a text of `used` columns. Spaces after a word may stand over, but then nothing
follows. -/
def fill (columns used : Nat) : List (List Char) → List Char
  | [] => []
  | w :: ws =>
    let shown := trimSpaces w
    let used := used + width shown
    if used ≤ columns then w ++ fill columns (used + (w.length - shown.length)) ws else []

/-- The text without one carriage return at its end. -/
def trimReturn (text : List Char) : List Char :=
  if text.getLast? = some '\r' then text.dropLast else text

end AmbientScope.FirstLine

namespace AmbientScope

/-- The first line of a message in a report with lines of the given width. -/
def firstLine (columns : Nat) (message : String) : String :=
  let line := message.toList.takeWhile (· ≠ '\n')
  .ofList (FirstLine.trimReturn (FirstLine.trimSpaces (FirstLine.fill columns 0 (FirstLine.words line))))

end AmbientScope
