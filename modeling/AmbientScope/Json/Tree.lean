import AmbientScope.Json.Token

/-!
# Trees

The nesting of a text's tokens. A tree may break off: where the text ends or is malformed the tree holds the
fault, and every container still open there is cut off by it. Building never fails; whoever reads a tree
from left to right meets the fault where the text has it.

The builder keeps the open containers in a list, innermost first, and moves one token at a time.
-/

set_option autoImplicit false

namespace AmbientScope

/-- A value as far as its text goes. A key or string without text is unreadable. -/
inductive Tree where
  | null
  | bool (value : Bool)
  | number (value : Numeral)
  | string (text : Option String)
  | array (items : List Tree) (cut : Option Break)
  | object (members : List (Option String × Tree)) (cut : Option Break)
  | broken (fault : Break)
  deriving Inhabited

namespace Tree

/-- An open container with what it holds so far, latest first. -/
inductive Frame where
  | array (items : List Tree)
  | object (members : List (Option String × Tree)) (key : Option String)

namespace Frame

/-- The container closed after one more value. -/
def close (f : Frame) (t : Tree) (cut : Option Break) : Tree :=
  match f with
  | array items => .array (t :: items).reverse cut
  | object members key => .object ((key, t) :: members).reverse cut

end Frame

/-- What the builder waits for. -/
inductive State where
  | done (t : Tree)
  | wantValue (outer : List Frame)
  | wantFirstItem (outer : List Frame)
  | wantFirstKey (outer : List Frame)
  | wantKey (members : List (Option String × Tree)) (outer : List Frame)
  | wantColon (members : List (Option String × Tree)) (key : Option String) (outer : List Frame)
  | wantSeparator (t : Tree) (inner : Frame) (outer : List Frame)

namespace State

/-- The state after a whole value. -/
def complete (t : Tree) : List Frame → State
  | [] => done t
  | f :: outer => wantSeparator t f outer

/-- Cut off all open containers around a value. -/
def enclose (b : Break) (t : Tree) (outer : List Frame) : Tree :=
  outer.foldl (fun t f => f.close t (some b)) t

/-- The tree of a text that breaks off in this state. -/
def abort (b : Break) : State → Tree
  | done t => t
  | wantValue outer => enclose b (.broken b) outer
  | wantFirstItem outer => enclose b (.broken b) (.array [] :: outer)
  | wantFirstKey outer => enclose b (.object [] (some b)) outer
  | wantKey members outer => enclose b (.object members.reverse (some b)) outer
  | wantColon members key outer => enclose b (.broken b) (.object members key :: outer)
  | wantSeparator t inner outer => enclose b t (inner :: outer)

/-- The state after the first token of a value. -/
def begin (outer : List Frame) : Token → State
  | .null => complete .null outer
  | .bool b => complete (.bool b) outer
  | .number n => complete (.number n) outer
  | .string s => complete (.string s) outer
  | .openArray => wantFirstItem outer
  | .openObject => wantFirstKey outer
  | .cutString b => done (abort b (wantValue outer))
  | .cutValue b => done (abort b (wantValue outer))
  | _ => done (abort .malformed (wantValue outer))

/-- The state after the token in the place of a key. -/
def afterKey (members : List (Option String × Tree)) (outer : List Frame) : Token → State
  | .string s => wantColon members s outer
  | .cutString b => done (abort b (wantKey members outer))
  | _ => done (abort .malformed (wantKey members outer))

def step : State → Token → State
  | done t, _ => done t
  | wantValue outer, t => begin outer t
  | wantFirstItem outer, .closeArray => complete (.array [] none) outer
  | wantFirstItem outer, t => begin (.array [] :: outer) t
  | wantFirstKey outer, .closeObject => complete (.object [] none) outer
  | wantFirstKey outer, t => afterKey [] outer t
  | wantKey members outer, t => afterKey members outer t
  | wantColon members key outer, .colon => wantValue (.object members key :: outer)
  | wantColon members key outer, _ => done (abort .malformed (wantColon members key outer))
  | wantSeparator t (.array items) outer, .comma => wantValue (.array (t :: items) :: outer)
  | wantSeparator t (.array items) outer, .closeArray =>
    complete (Frame.close (.array items) t none) outer
  | wantSeparator t (.object members key) outer, .comma => wantKey ((key, t) :: members) outer
  | wantSeparator t (.object members key) outer, .closeObject =>
    complete (Frame.close (.object members key) t none) outer
  | wantSeparator t inner outer, _ => done (abort .malformed (wantSeparator t inner outer))

/-- The tree of the tokens and those left over behind it. -/
def run : State → List Token → Tree × List Token
  | done t, rest => (t, rest)
  | s, [] => (s.abort .endOfText, [])
  | s, t :: rest => run (s.step t) rest

end State

/-- The tree at the start of a list of tokens, and the tokens behind it. -/
def ofTokens (tokens : List Token) : Tree × List Token := State.run (.wantValue []) tokens

/-- The tree at the start of a text, and the tokens behind it. -/
def ofText (text : String) : Tree × List Token := ofTokens (Token.scan text.toList)

/-! ## Faults -/

mutual

/-- The first fault met by a reader that skips the value. -/
def skipFault? : Tree → Option Fault
  | array items cut => (skipItems? items).or (cut.map Break.whenSkipped)
  | object members cut => (skipMembers? members).or (cut.map Break.whenSkipped)
  | broken b => some b.whenSkipped
  | _ => none

def skipItems? : List Tree → Option Fault
  | [] => none
  | t :: rest => t.skipFault?.or (skipItems? rest)

def skipMembers? : List (Option String × Tree) → Option Fault
  | [] => none
  | (_, t) :: rest => t.skipFault?.or (skipMembers? rest)

end

mutual

/-- The first fault met by a reader that takes the value as it is, with room for so many levels of nesting. -/
def readFault? (room : Nat) : Tree → Option Fault
  | number .outOfRange => some .malformed
  | string none => some .malformed
  | array items cut =>
    if room = 0 then some .malformed
    else (readItems? (room - 1) items).or (cut.map Break.whenRead)
  | object members cut =>
    if room = 0 then some .malformed
    else (readMembers? (room - 1) members).or (cut.map Break.whenRead)
  | broken b => some b.whenRead
  | _ => none

def readItems? (room : Nat) : List Tree → Option Fault
  | [] => none
  | t :: rest => (t.readFault? room).or (readItems? room rest)

def readMembers? (room : Nat) : List (Option String × Tree) → Option Fault
  | [] => none
  | (none, _) :: _ => some .malformed
  | (some _, t) :: rest => (t.readFault? room).or (readMembers? room rest)

end

end Tree

end AmbientScope
