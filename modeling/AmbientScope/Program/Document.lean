import AmbientScope.Json.Reading
import AmbientScope.Json.Value
import AmbientScope.Program.Basic

/-!
# Program documents

Reading and writing programs as JSON. An operation names its kind in a member of its own, which may stand
anywhere among the others; so an operation is taken in whole before its fields are read, and all below it
is read held.
-/

set_option autoImplicit false

namespace AmbientScope
open Reader

namespace Span

def fields : List (RecordField Span) :=
  [ requiredField "start" (natBelow UInt32.size "u32") fun n s => { s with start := .ofNat n }
  , defaultField "length" (natBelow UInt32.size "u32") fun n s => { s with length := .ofNat n } ]

def reader : Reader Span := record "struct TextSpan" fields {}

def toJson (s : Span) : Json :=
  .object [("start", .nat s.start.toNat), ("length", .nat s.length.toNat)]

end Span

namespace MethodName

def fields : List (RecordField MethodName) :=
  [ defaultField "namespace" string fun v m => { m with namespaceName := v }
  , defaultField "typeName" string fun v m => { m with typeName := v }
  , requiredField "method" string fun v m => { m with method := v } ]

def reader : Reader MethodName := record "struct MethodRef" fields ⟨"", "", ""⟩

def toJson (m : MethodName) : Json :=
  .object
    [ ("namespace", .string m.namespaceName)
    , ("typeName", .string m.typeName)
    , ("method", .string m.method) ]

end MethodName

namespace Operation

/-- The kinds of operation, in the order in which they are numbered. -/
inductive Kind where
  | block | invocation | conditional | loop | switch | attempt | other
  deriving DecidableEq, Inhabited

namespace Kind

def all : List Kind := [block, invocation, conditional, loop, switch, attempt, other]

def name : Kind → String
  | block => "block"
  | invocation => "invocation"
  | conditional => "conditional"
  | loop => "loop"
  | switch => "switch"
  | attempt => "try"
  | other => "other"

/-- A kind is named; in a held value it may also be numbered. -/
def reader : Reader Kind
  | _, .string (some s) =>
    match all.find? (·.name == s) with
    | some k => .ok k
    | none => .error (.mismatch (.unknownVariant s (all.map name)))
  | r, .number (.integer n) =>
    if r.held ∧ 0 ≤ n then
      match all[n.toNat]? with
      | some k => .ok k
      | none => .error (.mismatch (.outOfRange n "variant index 0 <= i < 7"))
    else .error (Reading.refuse "variant identifier" (.number (.integer n)))
  | _, t => .error (Reading.refuse "variant identifier" t)

end Kind

/-- An operation apart from its kind. -/
inductive Content where
  | members (ms : List (Option String × Tree))
  | items (ts : List Tree)

/-- Find the kind among the members, taking in all others in their order. -/
def gather (r : Reading) (kind : Option Kind) :
    List (Option String × Tree) → Except Rejection (Option Kind × List (Option String × Tree))
  | [] => .ok (kind, [])
  | (none, _) :: _ => .error (.fault .malformed)
  | (some key, t) :: rest =>
    if key = "kind" then
      if kind.isSome then .error (.mismatch (.duplicateField "kind")) else do
        let k ← Kind.reader r t
        gather r (some k) rest
    else do
      r.settle t
      let (kind, others) ← gather r kind rest
      .ok (kind, (some key, t) :: others)

def settleAll (r : Reading) : List Tree → Except Rejection Unit
  | [] => .ok ()
  | t :: rest => do
    r.settle t
    settleAll r rest

/-- Take in an operation; what is below it is held from here on. -/
def take (r : Reading) : Tree → Except Rejection (Kind × Content × Reading)
  | .object ms cut => do
    let r ← r.enter
    let (kind, others) ← gather r none ms
    Reading.leave cut
    match kind with
    | none => .error (.mismatch (.missingField "kind"))
    | some k => .ok (k, .members others, { r with held := true })
  | .array [] cut => do
    let _ ← r.enter
    Reading.leave cut
    .error (.mismatch (.missingField "kind"))
  | .array (t :: ts) cut => do
    let r ← r.enter
    let k ← Kind.reader r t
    settleAll r ts
    Reading.leave cut
    .ok (k, .items ts, { r with held := true })
  | t => .error (Reading.refuse "internally tagged enum Operation" t)

/-- Read the fields of an operation that has been taken in. -/
def Content.read {σ : Type} (wanted : String) (fields : List (RecordField σ)) (start : σ) (r : Reading) :
    Content → Except Rejection σ
  | .members ms => ofMembers fields start r ms none
  | .items ts => ofItems wanted fields.length r none start 0 fields ts

def childrenFields (op : Reader Operation) : List (RecordField (List Operation)) :=
  [defaultField "children" (list op) fun v _ => v]

def invocationFields (op : Reader Operation) : List (RecordField (Call × List Operation)) :=
  [ requiredField "target" MethodName.reader fun v s => ({ s.1 with target := v }, s.2)
  , defaultField "valueType" (optional string) fun v s => ({ s.1 with valueType := v }, s.2)
  , defaultField "key" (optional string) fun v s => ({ s.1 with key := v }, s.2)
  , defaultField "label" (optional string) fun v s => ({ s.1 with label := v }, s.2)
  , defaultField "arguments" (list op) fun v s => (s.1, v)
  , defaultField "span" Span.reader fun v s => ({ s.1 with span := v }, s.2) ]

def conditionalFields (op : Reader Operation) :
    List (RecordField (Option Operation × Operation × Option Operation)) :=
  [ defaultField "condition" (optional op) fun v s => (v, s.2)
  , requiredField "whenTrue" op fun v s => (s.1, v, s.2.2)
  , defaultField "whenFalse" (optional op) fun v s => (s.1, s.2.1, v) ]

def switchFields (op : Reader Operation) : List (RecordField (Option Operation × List Operation)) :=
  [ defaultField "value" (optional op) fun v s => (v, s.2)
  , defaultField "arms" (list op) fun v s => (s.1, v) ]

def attemptFields (op : Reader Operation) :
    List (RecordField (Operation × List Operation × Option Operation)) :=
  [ requiredField "body" op fun v s => (v, s.2)
  , defaultField "handlers" (list op) fun v s => (s.1, v, s.2.2)
  , defaultField "finally" (optional op) fun v s => (s.1, s.2.1, v) ]

/-- Read an operation of at most the given depth. -/
def read : (depth : Nat) → Reader Operation
  | 0, _, _ => .error (.fault .malformed)
  | depth + 1, r, t => do
    let (kind, content, r) ← take r t
    let op := read depth
    match kind with
    | .block => do
      let children ← content.read "struct variant Operation::Block" (childrenFields op) [] r
      .ok (block children)
    | .invocation => do
      let (call, arguments) ←
        content.read "struct Invocation" (invocationFields op) (⟨⟨"", "", ""⟩, none, none, none, {}⟩, []) r
      .ok (invocation call arguments)
    | .conditional => do
      let (condition, whenTrue, whenFalse) ←
        content.read "struct variant Operation::Conditional" (conditionalFields op) (none, default, none) r
      .ok (conditional condition whenTrue whenFalse)
    | .loop => do
      let children ← content.read "struct variant Operation::Loop" (childrenFields op) [] r
      .ok (loop children)
    | .switch => do
      let (value, arms) ←
        content.read "struct variant Operation::Switch" (switchFields op) (none, []) r
      .ok (switch value arms)
    | .attempt => do
      let (body, handlers, cleanup) ←
        content.read "struct variant Operation::Try" (attemptFields op) (default, [], none) r
      .ok (attempt body handlers cleanup)
    | .other => do
      let children ← content.read "struct variant Operation::Other" (childrenFields op) [] r
      .ok (other children)

/-- An operation is no deeper than the nesting of its text. -/
def reader : Reader Operation := fun r t => read (r.room + 1) r t

mutual

def toJson : Operation → Json
  | block children => .object [("kind", .string "block"), ("children", .array (listToJson children))]
  | invocation call arguments =>
    .object
      [ ("kind", .string "invocation")
      , ("target", call.target.toJson)
      , ("valueType", .ofOption .string call.valueType)
      , ("key", .ofOption .string call.key)
      , ("label", .ofOption .string call.label)
      , ("arguments", .array (listToJson arguments))
      , ("span", call.span.toJson) ]
  | conditional condition whenTrue whenFalse =>
    .object
      [ ("kind", .string "conditional")
      , ("condition", optionToJson condition)
      , ("whenTrue", whenTrue.toJson)
      , ("whenFalse", optionToJson whenFalse) ]
  | loop children => .object [("kind", .string "loop"), ("children", .array (listToJson children))]
  | switch value arms =>
    .object
      [ ("kind", .string "switch")
      , ("value", optionToJson value)
      , ("arms", .array (listToJson arms)) ]
  | attempt body handlers cleanup =>
    .object
      [ ("kind", .string "try")
      , ("body", body.toJson)
      , ("handlers", .array (listToJson handlers))
      , ("finally", optionToJson cleanup) ]
  | other children => .object [("kind", .string "other"), ("children", .array (listToJson children))]

def listToJson : List Operation → List Json
  | [] => []
  | op :: rest => op.toJson :: listToJson rest

def optionToJson : Option Operation → Json
  | none => .null
  | some op => op.toJson

end

end Operation

namespace Parameter

def fields : List (RecordField Parameter) :=
  [ requiredField "name" string fun v p => { p with name := v }
  , requiredField "type" string fun v p => { p with type := v }
  , defaultField "attributes" (list string) fun v p => { p with attributes := v } ]

def reader : Reader Parameter := record "struct ParamDecl" fields ⟨"", "", []⟩

def toJson (p : Parameter) : Json :=
  .object
    [ ("name", .string p.name)
    , ("type", .string p.type)
    , ("attributes", .strings p.attributes) ]

end Parameter

namespace Declaration

def fields : List (RecordField Declaration) :=
  [ requiredField "name" string fun v d => { d with name := v }
  , defaultField "containingType" string fun v d => { d with containingType := v }
  , defaultField "namespace" string fun v d => { d with namespaceName := v }
  , defaultField "params" (list Parameter.reader) fun v d => { d with params := v }
  , defaultField "returnType" (optional string) fun v d => { d with returnType := v }
  , defaultField "attributes" (list string) fun v d => { d with attributes := v }
  , defaultField "file" (optional string) fun v d => { d with file := v }
  , defaultField "span" Span.reader fun v d => { d with span := v }
  , defaultField "body" (optional Operation.reader) fun v d => { d with body := v } ]

def reader : Reader Declaration := record "struct RoutineDecl" fields { name := "" }

def toJson (d : Declaration) : Json :=
  .object
    [ ("name", .string d.name)
    , ("containingType", .string d.containingType)
    , ("namespace", .string d.namespaceName)
    , ("params", .array (d.params.map Parameter.toJson))
    , ("returnType", .ofOption .string d.returnType)
    , ("attributes", .strings d.attributes)
    , ("file", .ofOption .string d.file)
    , ("span", d.span.toJson)
    , ("body", .ofOption Operation.toJson d.body) ]

end Declaration

namespace Program

def fields : List (RecordField Program) :=
  [requiredField "routines" (list Declaration.reader) fun v p => { p with routines := v }]

def reader : Reader Program := record "struct ProgramInput" fields ⟨[]⟩

def toJson (p : Program) : Json :=
  .object [("routines", .array (p.routines.map Declaration.toJson))]

def parse (text : String) : Except Rejection Program := document reader text

/-- The wording of a refusal, which a fault of the text does not have. -/
def refusal? (r : Rejection) : Option String :=
  r.message?.map ("invalid call-graph document: " ++ ·)

def print (p : Program) : String := p.toJson.compact

end Program

end AmbientScope
