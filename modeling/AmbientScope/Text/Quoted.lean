/-!
# Quoted text

Two ways to write a text between double quotes. `display` is for messages: a control character is
shown by its number in braces. `json` is for documents: only the quote, the backslash and the
characters below U+0020 are escaped.
-/

set_option autoImplicit false

namespace AmbientScope.Quoted

def hex (n : Nat) : List Char := Nat.toDigits 16 n

/-- A number to base sixteen in exactly four digits. -/
def hex4 (n : Nat) : List Char :=
  [12, 8, 4, 0].map fun shift => Nat.digitChar (n >>> shift % 16)

/-- One character of a text shown in a message. -/
def displayChar (c : Char) : List Char :=
  match c with
  | '"' => ['\\', '"']
  | '\\' => ['\\', '\\']
  | '\t' => ['\\', 't']
  | '\n' => ['\\', 'n']
  | '\r' => ['\\', 'r']
  | '\x00' => ['\\', '0']
  | _ =>
    if c.toNat < 32 ∨ c.toNat = 127 then '\\' :: 'u' :: '\x7b' :: hex c.toNat ++ ['\x7d']
    else [c]

/-- One character of a text in a document. -/
def jsonChar (c : Char) : List Char :=
  match c with
  | '"' => ['\\', '"']
  | '\\' => ['\\', '\\']
  | '\x08' => ['\\', 'b']
  | '\t' => ['\\', 't']
  | '\n' => ['\\', 'n']
  | '\x0c' => ['\\', 'f']
  | '\r' => ['\\', 'r']
  | _ => if c.toNat < 32 then '\\' :: 'u' :: hex4 c.toNat else [c]

def display (s : String) : String :=
  String.ofList ('"' :: s.toList.flatMap displayChar ++ ['"'])

def json (s : String) : List Char := '"' :: s.toList.flatMap jsonChar ++ ['"']

end AmbientScope.Quoted
