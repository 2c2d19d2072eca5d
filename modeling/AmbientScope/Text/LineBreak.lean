import AmbientScope.Text.LineClass

/-!
# Where a line may end

A text is read from left to right, and before each character stands the question whether a line may end
there. The answer depends on the class of the character and on a little of what came before it: the last
character that is not a space, whether spaces followed it, and how a run of halves of flags pairs up. Marks
that are set on a character count as part of it.
-/

set_option autoImplicit false

namespace AmbientScope.LineBreak

open LineClass

/-- A line ends after it in any case. -/
def isHard (c : LineClass) : Bool := c ∈ [hardBreak, carriageReturn, lineFeed]

/-- A mark set on the character before it. -/
def isMark (c : LineClass) : Bool := c ∈ [combining, joiner]

/-- What has been read of a text. -/
structure Context where
  /-- The class of the last character, spaces and marks apart. -/
  last : LineClass
  /-- Spaces have followed it. -/
  spaced : Bool
  /-- The character just read was a joiner. -/
  joined : Bool
  /-- The last character is a hyphen right behind a Hebrew letter. -/
  afterHebrew : Bool
  /-- The last character is the first half of a flag. -/
  halfFlag : Bool
  deriving DecidableEq, Inhabited

namespace Context

/-- The beginning of a text is the beginning of a line. -/
def start : Context := ⟨hardBreak, false, false, false, false⟩

/-- Whether a character of class `c` is a mark on the last one. -/
def extendedBy (x : Context) (c : LineClass) : Bool :=
  isMark c && !x.spaced && !isHard x.last && x.last ≠ zeroWidthSpace

/-- After a character of class `c`. A mark with nothing to be set on counts as a letter. -/
def next (x : Context) (c : LineClass) : Context :=
  if c = space then
    if isHard x.last then ⟨space, true, false, false, false⟩
    else { x with spaced := true, joined := false }
  else if x.extendedBy c then { x with joined := c = joiner }
  else
    { last := if isMark c then alphabetic else c
      spaced := false
      joined := c = joiner
      afterHebrew := c ∈ [hyphen, breakAfter] && x.last = hebrew && !x.spaced
      halfFlag := c = regional && !(x.halfFlag && !x.spaced) }

end Context

/-! ## Neighbours that stay together -/

/-- Pairs that stay together also with spaces between them. -/
def staysAcrossSpaces (l c : LineClass) : Bool :=
  c ∈ [wordJoiner, closing, closingParenthesis, exclamation, numberSeparator, slash]
    || l = opening
    || (l = quotation && c = opening)
    || (l ∈ [closing, closingParenthesis] && c = nonStarter)
    || (l = breakAround && c = breakAround)

def letters : List LineClass := [alphabetic, hebrew]

def pictures : List LineClass := [ideographic, emojiBase, emojiModifier]

def korean : List LineClass := [leadingJamo, vowelJamo, trailingJamo, openSyllable, closedSyllable]

/-- Pairs without a break between them, the first of one list and the second of the other: words, numbers
with their signs, Korean syllables, and what is enclosed in parentheses. -/
def togetherPairs : List (List LineClass × List LineClass) :=
  [([slash], [hebrew]),
   (letters, numeric :: letters),
   ([numeric], letters),
   ([beforeNumber], pictures ++ korean),
   (pictures ++ korean, [afterNumber]),
   ([beforeNumber, afterNumber], letters),
   (letters, [beforeNumber, afterNumber]),
   ([closing, closingParenthesis, numeric], [beforeNumber, afterNumber]),
   ([beforeNumber, afterNumber], [opening, numeric]),
   ([hyphen, numberSeparator, numeric, slash], [numeric]),
   ([leadingJamo], [leadingJamo, vowelJamo, openSyllable, closedSyllable]),
   ([vowelJamo, openSyllable], [vowelJamo, trailingJamo]),
   ([trailingJamo, closedSyllable], [trailingJamo]),
   ([numberSeparator], letters),
   (numeric :: letters, [opening]),
   ([closingParenthesis], numeric :: letters),
   ([emojiBase], [emojiModifier])]

/-- Whether the last character and a neighbour of class `c` stay together. -/
def staysTogether (x : Context) (c : LineClass) : Bool :=
  x.last ∈ [wordJoiner, glue]
    || (c = glue && !(x.last ∈ [breakAfter, hyphen]))
    || x.last = quotation || c = quotation
    || (x.last ≠ contingent && c ≠ contingent &&
      (c ∈ [breakAfter, hyphen, nonStarter, inseparable]
        || x.last = breakBefore
        || x.afterHebrew
        || (x.halfFlag && c = regional)
        || togetherPairs.any fun (ls, cs) => x.last ∈ ls && c ∈ cs))

/-! ## Breaks -/

/-- Whether a line may end before a character of class `c`. -/
def breaksBefore (x : Context) (c : LineClass) : Bool :=
  if isHard x.last then !(x.last = carriageReturn && c = lineFeed)
  else if isHard c || c = space || c = zeroWidthSpace then false
  else if x.last = zeroWidthSpace then true
  else if x.joined || x.extendedBy c then false
  else
    let k := if isMark c then alphabetic else c
    if staysAcrossSpaces x.last k then false
    else x.spaced || !staysTogether x k

/-- For each character, whether a line may end before it; one begins with the first. -/
def breaksFrom (x : Context) : List LineClass → List Bool
  | [] => []
  | c :: cs => breaksBefore x c :: breaksFrom (x.next c) cs

end AmbientScope.LineBreak
