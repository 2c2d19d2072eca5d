import AmbientScope.Scope.Store

/-!
# Bindings

A binding is known by the type of its value and an optional name. Values of any type can be stored under any key;
resolving asks for the type of the key and fails when the innermost value is of another one.
-/

set_option autoImplicit false

namespace AmbientScope

inductive ValueType where
  | bool | int | byte | text
  deriving DecidableEq, Inhabited

namespace ValueType

def name : ValueType → String
  | bool => "bool"
  | int => "i64"
  | byte => "u8"
  | text => "alloc::string::String"

end ValueType

inductive Value where
  | bool (b : Bool)
  | int (n : Int64)
  | byte (n : UInt8)
  | text (s : String)
  deriving DecidableEq, Inhabited

namespace Value

def type : Value → ValueType
  | bool _ => .bool
  | int _ => .int
  | byte _ => .byte
  | text _ => .text

end Value

/-- What a value is bound under: a type, of whatever types there are, and an optional name. -/
structure TypedKey (τ : Type) where
  type : τ
  name : Option String := none
  deriving DecidableEq, Inhabited

inductive ResolveFailure (τ : Type) where
  | notFound (key : TypedKey τ)
  | typeMismatch (key : TypedKey τ)
  deriving DecidableEq, Inhabited

namespace TypedKey
variable {τ α : Type}

/-- What is resolved when the innermost value under the key is the given one. -/
def found (key : TypedKey τ) : Option α → Except (ResolveFailure τ) α
  | some v => .ok v
  | none => .error (.notFound key)

/-- The same when the value has to be of the type of the key. -/
def foundTyped [DecidableEq τ] (typeOf : α → τ) (key : TypedKey τ) (innermost : Option α) :
    Except (ResolveFailure τ) α :=
  match key.found innermost with
  | .error e => .error e
  | .ok v => if typeOf v = key.type then .ok v else .error (.typeMismatch key)

section FoundTyped
variable [DecidableEq τ] {typeOf : α → τ} {key k : TypedKey τ} {innermost : Option α} {v : α}

theorem foundTyped_eq_notFound_iff :
    key.foundTyped typeOf innermost = .error (.notFound k) ↔ k = key ∧ innermost = none := by
  cases innermost with
  | none => simp [foundTyped, found, eq_comm]
  | some v => by_cases hv : typeOf v = key.type <;> simp [foundTyped, found, hv]

theorem foundTyped_eq_typeMismatch_iff :
    key.foundTyped typeOf innermost = .error (.typeMismatch k) ↔
      k = key ∧ ∃ v, innermost = some v ∧ typeOf v ≠ key.type := by
  cases innermost with
  | none => simp [foundTyped, found]
  | some v =>
    by_cases hv : typeOf v = key.type
    · simp [foundTyped, found, hv]
    · simpa [foundTyped, found, hv] using eq_comm

theorem foundTyped_eq_ok_iff :
    key.foundTyped typeOf innermost = .ok v ↔ innermost = some v ∧ typeOf v = key.type := by
  cases innermost with
  | none => simp [foundTyped, found]
  | some w =>
    by_cases hw : typeOf w = key.type
    · simp only [foundTyped, found, hw, if_true, Except.ok.injEq, Option.some.injEq]
      exact ⟨fun h => ⟨h, h ▸ hw⟩, And.left⟩
    · simp only [foundTyped, found, hw, if_false, reduceCtorEq, Option.some.injEq, false_iff]
      rintro ⟨rfl, hv⟩
      exact hw hv

end FoundTyped

end TypedKey

abbrev BindingKey := TypedKey ValueType

abbrev ResolveError := ResolveFailure ValueType

namespace BindingKey

def describe (k : BindingKey) : String :=
  match k.name with
  | none => k.type.name
  | some name => k.type.name ++ "[\"" ++ name ++ "\"]"

/-- The key with the word for what it is. -/
def caption (k : BindingKey) : String := "BindingKey(" ++ k.describe ++ ")"

def isUnnamed (k : BindingKey) : Bool := k.name.isNone

def foundTyped (key : BindingKey) (innermost : Option Value) : Except ResolveError Value :=
  TypedKey.foundTyped Value.type key innermost

end BindingKey

namespace ResolveError

def message : ResolveError → String
  | .notFound key => "context value not found: " ++ BindingKey.describe key
  | .typeMismatch key =>
    "context value " ++ BindingKey.describe key ++ " does not hold a " ++ key.type.name

end ResolveError

abbrev ValueStore := Store BindingKey Value

namespace ValueStore

/-- The innermost value under a key, whatever its type. -/
def resolveValue (s : ValueStore) (current : FrameId) (key : BindingKey) :
    Except ResolveError Value := key.found (s.resolve? current key)

/-- The innermost value under a key, which must be of the key's type. -/
def resolve (s : ValueStore) (current : FrameId) (key : BindingKey) : Except ResolveError Value :=
  key.foundTyped (s.resolve? current key)

end ValueStore

end AmbientScope
