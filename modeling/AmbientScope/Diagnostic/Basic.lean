import AmbientScope.Text.Span
import AmbientScope.Text.Substring

/-!
# Diagnostics

A diagnostic is a filled template with a place. The arguments of a template are put in one after the other:
all places of the first, then in the result all places of the second, and so on.
-/

set_option autoImplicit false

namespace AmbientScope

/-- How serious a diagnostic is, most serious first. -/
inductive Severity where
  | error | warning | message
  deriving DecidableEq, Inhabited

namespace Severity

def name : Severity → String
  | error => "error"
  | warning => "warning"
  | message => "message"

def rank : Severity → Nat
  | error => 0
  | warning => 1
  | message => 2

def le (a b : Severity) : Bool := a.rank ≤ b.rank

end Severity

/-- A kind of diagnostic; `{0}`, `{1}`, … in its text are places for arguments. -/
structure Template where
  code : Nat
  severity : Severity
  text : String
  deriving DecidableEq, Inhabited

namespace Template

def placeholder (i : Nat) : List Char := '\x7b' :: Nat.toDigits 10 i ++ ['\x7d']

/-- Put in the arguments one after the other, the first one at the place with the given number. -/
def fillFrom (i : Nat) (args : List (List Char)) (text : List Char) : List Char :=
  match args with
  | [] => text
  | arg :: rest => fillFrom (i + 1) rest (Substring.replaceAll (placeholder i) arg text)

def fill (t : Template) (args : List String) : String :=
  String.ofList (fillFrom 0 (args.map String.toList) t.text.toList)

/-! ## The catalogue -/

/-- One for each effect when effects are echoed. -/
def debugEcho : Template := ⟨9000, .message, "\x7b0\x7d"⟩

def alreadyProvided : Template :=
  ⟨9001, .error, "Value '\x7b0\x7d' is already provided in this scope."⟩

def hiddenEffect : Template :=
  ⟨9002, .warning, "Scope effect '\x7b0\x7d' does not run on every path through '\x7b1\x7d'."⟩

def previousProvide : Template := ⟨9003, .message, "Previous provide of '\x7b0\x7d' is here."⟩

end Template

structure Diagnostic where
  code : Nat
  severity : Severity
  message : String
  file : Option String := none
  span : Option Span := none
  /-- Further places, such as the earlier provide that a duplicate collides with. -/
  related : List Diagnostic := []
  deriving Inhabited

namespace Diagnostic

def ofTemplate (t : Template) (args : List String) : Diagnostic where
  code := t.code
  severity := t.severity
  message := t.fill args

def located (file : Option String) (span : Span) (t : Template) (args : List String) : Diagnostic :=
  { ofTemplate t args with file := file, span := some span }

def withRelated (d r : Diagnostic) : Diagnostic := { d with related := d.related ++ [r] }

def withSeverity (d : Diagnostic) (s : Severity) : Diagnostic := { d with severity := s }

def isError (d : Diagnostic) : Bool := d.severity == .error

def codeText (d : Diagnostic) : String := "SCOPY" ++ toString d.code

/-- The offset by which a diagnostic is ordered; none counts as the start of the file. -/
def start (d : Diagnostic) : Nat :=
  match d.span with
  | none => 0
  | some s => s.start.toNat

/-- The place as far as it is known. -/
def place (d : Diagnostic) : String :=
  match d.file, d.span with
  | some file, some s => file ++ "(" ++ toString s.start.toNat ++ "): "
  | some file, none => file ++ ": "
  | none, some s => "(" ++ toString s.start.toNat ++ "): "
  | none, none => ""

def line (d : Diagnostic) : String :=
  d.place ++ d.severity.name ++ " " ++ d.codeText ++ ": " ++ d.message

/-- By file, those without one first; then by start; then by code. -/
def order : Diagnostic → Diagnostic → Ordering :=
  compareLex (compareOn file) (compareLex (compareOn start) (compareOn code))

def le (a b : Diagnostic) : Bool := (order a b).isLE

end Diagnostic

end AmbientScope
