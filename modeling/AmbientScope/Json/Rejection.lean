import AmbientScope.Json.Tree
import AmbientScope.Decimal.Shortest
import AmbientScope.Text.Quoted

/-!
# Rejections

Why a document is refused: its text is at fault, or the text is sound and its shape is not the one wanted.
`message` gives the wording of the second kind.
-/

set_option autoImplicit false

namespace AmbientScope

inductive Found where
  | null
  | boolean (value : Bool)
  | integer (value : Int)
  | real (negative : Bool) (magnitude : Binary64)
  | string (text : String)
  | sequence
  | map
  deriving DecidableEq, Inhabited

namespace Found

def describe : Found → String
  | null => "null"
  | boolean b => "boolean `" ++ (if b then "true" else "false") ++ "`"
  | integer n => "integer `" ++ toString n ++ "`"
  | real negative x =>
    "floating point `" ++ (if negative then "-" else "") ++ (Decimal.shortest x).layout ++ "`"
  | string s => "string " ++ Quoted.display s
  | sequence => "sequence"
  | map => "map"

end Found

inductive Mismatch where
  | missingField (name : String)
  | duplicateField (name : String)
  | unknownVariant (name : String) (known : List String)
  | wrongType (found : Found) (wanted : String)
  | outOfRange (value : Int) (wanted : String)
  | wrongLength (found : Nat) (wanted : String)
  deriving DecidableEq, Inhabited

namespace Mismatch

def message : Mismatch → String
  | missingField name => "missing field `" ++ name ++ "`"
  | duplicateField name => "duplicate field `" ++ name ++ "`"
  | unknownVariant name known =>
    "unknown variant `" ++ name ++ "`, expected one of " ++
      String.intercalate ", " (known.map fun k => "`" ++ k ++ "`")
  | wrongType found wanted => "invalid type: " ++ found.describe ++ ", expected " ++ wanted
  | outOfRange value wanted =>
    "invalid value: " ++ (Found.integer value).describe ++ ", expected " ++ wanted
  | wrongLength found wanted => "invalid length " ++ toString found ++ ", expected " ++ wanted

end Mismatch

inductive Rejection where
  | fault (f : Fault)
  | mismatch (m : Mismatch)
  deriving DecidableEq, Inhabited

namespace Rejection

/-- The wording of a mismatch; a fault of the text has none. -/
def message? : Rejection → Option String
  | fault _ => none
  | mismatch m => some m.message

end Rejection

end AmbientScope
