/-!
# Control codes of a terminal

An escape character begins a code that a terminal obeys and does not show. A bracket after it begins a control
sequence, which ends with the first character from `@` to `~`; a closing bracket begins a command, which ends with
a bell or with an escape and a backslash; any other character after it is the whole code.
-/

set_option autoImplicit false

namespace AmbientScope

/-- Where in a text a character stands. -/
inductive ControlCode where
  /-- Outside of a code. -/
  | outside
  /-- After the escape character. -/
  | begun
  | sequence
  | command (last : Char)
  deriving DecidableEq, Inhabited

namespace ControlCode

def next : ControlCode → Char → ControlCode
  | outside, c => if c = '\x1b' then begun else outside
  | begun, c => if c = '[' then sequence else if c = ']' then command c else outside
  | sequence, c => if '@' ≤ c && c ≤ '~' then outside else sequence
  | command last, c => if c = '\x07' || (c = '\\' && last = '\x1b') then outside else command c

/-- Whether the character `c` is shown. -/
def shows (m : ControlCode) (c : Char) : Bool := m = outside && c ≠ '\x1b'

end ControlCode

def shownFrom (m : ControlCode) : List Char → List Char
  | [] => []
  | c :: cs => if m.shows c then c :: shownFrom (m.next c) cs else shownFrom (m.next c) cs

end AmbientScope
