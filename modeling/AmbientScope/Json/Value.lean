import AmbientScope.Text.Quoted

/-!
# Values and their text

A JSON value as the library writes it: all numbers are whole, and an object keeps its members in
order. `compact` writes no space at all; `pretty` gives every item and member a line of its own,
indented by two spaces a level.
-/

set_option autoImplicit false

namespace AmbientScope

inductive Json where
  | null
  | bool (value : Bool)
  | number (value : Int)
  | string (value : String)
  | array (items : List Json)
  | object (members : List (String × Json))
  deriving Inhabited

namespace Json

def ofOption {α : Type} (f : α → Json) : Option α → Json
  | none => null
  | some a => f a

def strings (l : List String) : Json := array (l.map string)

def nat (n : Nat) : Json := number n

/-- A whole number in decimal digits. -/
def writtenInt (n : Int) : List Char :=
  if n < 0 then '-' :: Nat.toDigits 10 n.natAbs else Nat.toDigits 10 n.natAbs

mutual

def chars : Json → List Char
  | null => ['n', 'u', 'l', 'l']
  | bool true => ['t', 'r', 'u', 'e']
  | bool false => ['f', 'a', 'l', 's', 'e']
  | number n => writtenInt n
  | string s => Quoted.json s
  | array items => '[' :: itemChars items ++ [']']
  | object members => '\x7b' :: memberChars members ++ ['\x7d']

def itemChars : List Json → List Char
  | [] => []
  | [v] => v.chars
  | v :: w :: rest => v.chars ++ ',' :: itemChars (w :: rest)

def memberChars : List (String × Json) → List Char
  | [] => []
  | [(k, v)] => Quoted.json k ++ ':' :: v.chars
  | (k, v) :: m :: rest => Quoted.json k ++ ':' :: v.chars ++ ',' :: memberChars (m :: rest)

end

def compact (v : Json) : String := String.ofList v.chars

/-- A line break and the indentation of a level. -/
def lineBreak (level : Nat) : List Char := '\n' :: List.replicate (2 * level) ' '

mutual

/-- The characters of a value laid out over lines, starting at the given level. -/
def prettyChars (level : Nat) : Json → List Char
  | array [] => ['[', ']']
  | array (v :: rest) => '[' :: prettyItems (level + 1) (v :: rest) ++ lineBreak level ++ [']']
  | object [] => ['\x7b', '\x7d']
  | object (m :: rest) => '\x7b' :: prettyMembers (level + 1) (m :: rest) ++ lineBreak level ++ ['\x7d']
  | null => chars null
  | bool b => chars (bool b)
  | number n => chars (number n)
  | string s => chars (string s)

def prettyItems (level : Nat) : List Json → List Char
  | [] => []
  | [v] => lineBreak level ++ v.prettyChars level
  | v :: w :: rest => lineBreak level ++ v.prettyChars level ++ ',' :: prettyItems level (w :: rest)

def prettyMembers (level : Nat) : List (String × Json) → List Char
  | [] => []
  | [(k, v)] => lineBreak level ++ Quoted.json k ++ ':' :: ' ' :: v.prettyChars level
  | (k, v) :: m :: rest =>
    lineBreak level ++ Quoted.json k ++ ':' :: ' ' :: v.prettyChars level ++
      ',' :: prettyMembers level (m :: rest)

end

def pretty (v : Json) : String := String.ofList (v.prettyChars 0)

end Json

end AmbientScope
