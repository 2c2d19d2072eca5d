import AmbientScope.Json.Rejection

/-!
# Reading trees

Typed readers over trees. A document is read from left to right and the first problem is reported. A value
is read either straight from its text or held, that is, after all of it has been taken in once; only in its
text can a value still be at fault, and only there does it matter where exactly.

A record is written as an object, its members in any order, or as an array of its fields in theirs.
-/

set_option autoImplicit false

namespace AmbientScope

/-- How a value is read, and how many more levels of nesting it may have. -/
structure Reading where
  held : Bool := false
  room : Nat := 127
  deriving DecidableEq, Inhabited

abbrev Reader (α : Type) := Reading → Tree → Except Rejection α

namespace Reading

def enter (r : Reading) : Except Rejection Reading :=
  match r.room with
  | 0 => .error (.fault .malformed)
  | room + 1 => .ok { r with room := room }

/-- Leave an array or object, which must not break off. -/
def leave (cut : Option Break) : Except Rejection Unit :=
  match cut with
  | none => .ok ()
  | some b => .error (.fault b.whenRead)

/-- Pass over a value that nobody wants. -/
def skip (r : Reading) (t : Tree) : Except Rejection Unit :=
  if r.held then .ok () else
  match t.skipFault? with
  | none => .ok ()
  | some f => .error (.fault f)

/-- Take in a value whole, so that it can be read later. -/
def settle (r : Reading) (t : Tree) : Except Rejection Unit :=
  if r.held then .ok () else
  match t.readFault? r.room with
  | none => .ok ()
  | some f => .error (.fault f)

/-- Why a tree is not of the type wanted; a scalar has to be readable before its type is judged. -/
def refuse (wanted : String) : Tree → Rejection
  | .null => .mismatch (.wrongType .null wanted)
  | .bool b => .mismatch (.wrongType (.boolean b) wanted)
  | .number (.integer n) => .mismatch (.wrongType (.integer n) wanted)
  | .number (.real negative x) => .mismatch (.wrongType (.real negative x) wanted)
  | .number .outOfRange => .fault .malformed
  | .string (some s) => .mismatch (.wrongType (.string s) wanted)
  | .string none => .fault .malformed
  | .array _ _ => .mismatch (.wrongType .sequence wanted)
  | .object _ _ => .mismatch (.wrongType .map wanted)
  | .broken b => .fault b.whenRead

end Reading

namespace Reader
open Reading

/-! ## Scalars and lists -/

def bool : Reader Bool
  | _, .bool b => .ok b
  | _, t => .error (refuse "a boolean" t)

def string : Reader String
  | _, .string (some s) => .ok s
  | _, t => .error (refuse "a string" t)

/-- A natural number below `limit`. -/
def natBelow (limit : Nat) (wanted : String) : Reader Nat
  | _, .number (.integer n) =>
    if 0 ≤ n ∧ n < limit then .ok n.toNat else .error (.mismatch (.outOfRange n wanted))
  | _, t => .error (refuse wanted t)

def optional {α : Type} (inner : Reader α) : Reader (Option α)
  | _, .null => .ok none
  | r, t => (inner r t).map some

def items {α : Type} (inner : Reader α) (r : Reading) : List Tree → Except Rejection (List α)
  | [] => .ok []
  | t :: rest => do
    let a ← inner r t
    let l ← items inner r rest
    .ok (a :: l)

def list {α : Type} (inner : Reader α) : Reader (List α)
  | r, .array ts cut => do
    let l ← items inner (← r.enter) ts
    leave cut
    .ok l
  | _, t => .error (refuse "a sequence" t)

/-! ## Records -/

/-- Which fields may be left out: a nullable one only of an object, one with a default also at the end of
an array. -/
inductive Presence where
  | required
  | nullable
  | defaulted
  deriving DecidableEq

/-- A field of a record: its name and how its value changes the record read so far. -/
structure RecordField (σ : Type) where
  name : String
  presence : Presence
  read : Reading → Tree → Except Rejection (σ → σ)

/-- A field whose value goes where `put` says. -/
def field {σ α : Type} (name : String) (presence : Presence) (reader : Reader α)
    (put : α → σ → σ) : RecordField σ :=
  ⟨name, presence, fun r t => (reader r t).map put⟩

def requiredField {σ α : Type} (name : String) (reader : Reader α) (put : α → σ → σ) : RecordField σ :=
  field name .required reader put

def defaultField {σ α : Type} (name : String) (reader : Reader α) (put : α → σ → σ) : RecordField σ :=
  field name .defaulted reader put

def nullableField {σ α : Type} (name : String) (reader : Reader α) (put : Option α → σ → σ) :
    RecordField σ :=
  field name .nullable (optional reader) put

/-- Read members in the order of the text, noting which fields have been met. -/
def members {σ : Type} (fields : List (RecordField σ)) (r : Reading) (s : σ) (met : List String) :
    List (Option String × Tree) → Except Rejection (σ × List String)
  | [] => .ok (s, met)
  | (none, _) :: _ => .error (.fault .malformed)
  | (some key, t) :: rest =>
    match fields.find? (·.name == key) with
    | none => do
      r.skip t
      members fields r s met rest
    | some f =>
      if key ∈ met then .error (.mismatch (.duplicateField key)) else do
        let change ← f.read r t
        members fields r (change s) (key :: met) rest

/-- Refuse a record that lacks a required field, the first one in field order. -/
def complete {σ : Type} (met : List String) : List (RecordField σ) → Except Rejection Unit
  | [] => .ok ()
  | f :: rest =>
    if f.presence = .required ∧ f.name ∉ met then .error (.mismatch (.missingField f.name))
    else complete met rest

def ofMembers {σ : Type} (fields : List (RecordField σ)) (start : σ) (r : Reading)
    (ms : List (Option String × Tree)) (cut : Option Break) : Except Rejection σ := do
  let (s, met) ← members fields r start [] ms
  leave cut
  complete met fields
  .ok s

/-- How many of something, in words. -/
def elements (n : Nat) : String := toString n ++ (if n = 1 then " element" else " elements")

/-- Read the fields in order from the front of a list of items; `seen` counts those already read. -/
def ofItems {σ : Type} (wanted : String) (total : Nat) (r : Reading) (cut : Option Break) (s : σ)
    (seen : Nat) : List (RecordField σ) → List Tree → Except Rejection σ
  | [], [] => do
    leave cut
    .ok s
  | [], extra =>
    if r.held then
      .error (.mismatch (.wrongLength (seen + extra.length) (elements total ++ " in sequence")))
    else .error (.fault .malformed)
  | f :: fields, t :: ts => do
    let change ← f.read r t
    ofItems wanted total r cut (change s) (seen + 1) fields ts
  | f :: fields, [] => do
    leave cut
    if f.presence = .defaulted then ofItems wanted total r cut s (seen + 1) fields []
    else .error (.mismatch (.wrongLength seen (wanted ++ " with " ++ elements total)))

/-- Read a record; `wanted` is what a message calls it. -/
def record {σ : Type} (wanted : String) (fields : List (RecordField σ)) (start : σ) : Reader σ
  | r, .object ms cut => do ofMembers fields start (← r.enter) ms cut
  | r, .array ts cut => do ofItems wanted fields.length (← r.enter) cut start 0 fields ts
  | _, t => .error (refuse wanted t)

/-! ## Documents -/

/-- Read a whole text: nothing but blanks may follow the value. -/
def document {α : Type} (reader : Reader α) (text : String) : Except Rejection α := do
  let (tree, rest) := Tree.ofText text
  let a ← reader {} tree
  if rest.isEmpty then .ok a else .error (.fault .malformed)

end Reader

end AmbientScope
