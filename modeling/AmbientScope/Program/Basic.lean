import AmbientScope.Text.Span

/-!
# Programs

A program is a list of routine declarations. Of a body only the calls matter, and the constructs around
them that decide whether a call is sure to run.
-/

set_option autoImplicit false

namespace AmbientScope

/-- The nonempty parts of a name, with dots between them. -/
def qualify (parts : List String) : String :=
  String.intercalate "." (parts.filter fun part => !part.isEmpty)

structure MethodName where
  namespaceName : String := ""
  typeName : String := ""
  method : String
  deriving DecidableEq, Inhabited

namespace MethodName

def qualified (m : MethodName) : String := qualify [m.namespaceName, m.typeName, m.method]

end MethodName

structure Call where
  target : MethodName
  /-- The type of the value provided or resolved. -/
  valueType : Option String := none
  /-- The name that tells apart values of one type. -/
  key : Option String := none
  /-- The label of the scope pushed. -/
  label : Option String := none
  span : Span := {}
  deriving DecidableEq, Inhabited

/-- A node of a routine's body. -/
inductive Operation where
  | block (children : List Operation)
  | invocation (call : Call) (arguments : List Operation)
  | conditional (condition : Option Operation) (whenTrue : Operation) (whenFalse : Option Operation)
  | loop (children : List Operation)
  | switch (value : Option Operation) (arms : List Operation)
  | attempt (body : Operation) (handlers : List Operation) (cleanup : Option Operation)
  /-- Any other operator; all its operands are evaluated. -/
  | other (children : List Operation)

instance : Inhabited Operation := ⟨.block []⟩

namespace Operation

/-- The operations directly below, in the order in which they are written. -/
def parts : Operation → List Operation
  | block children => children
  | invocation _ arguments => arguments
  | conditional condition whenTrue whenFalse => condition.toList ++ whenTrue :: whenFalse.toList
  | loop children => children
  | switch value arms => value.toList ++ arms
  | attempt body handlers cleanup => body :: handlers ++ cleanup.toList
  | other children => children

/-- Whether the operations below may be left out when this one runs. -/
def isControl : Operation → Bool
  | conditional _ _ _ => true
  | loop _ => true
  | switch _ _ => true
  | attempt _ _ _ => true
  | _ => false

/-- A property of all operations: it passes from the operations directly below to the one above. -/
@[elab_as_elim]
theorem induction {motive : Operation → Prop}
    (step : ∀ op, (∀ part ∈ op.parts, motive part) → motive op) (op : Operation) : motive op := by
  refine @Operation.rec motive (fun ops => ∀ op ∈ ops, motive op) (fun o => ∀ op ∈ o, motive op)
    ?_ ?_ ?_ ?_ ?_ ?_ ?_ ?_ ?_ ?_ ?_ op
  · exact fun children h => step _ h
  · exact fun call arguments h => step _ h
  · intro condition whenTrue whenFalse hcondition htrue hfalse
    refine step _ fun part hpart => ?_
    simp only [parts, List.mem_append, List.mem_cons, Option.mem_toList] at hpart
    rcases hpart with h | rfl | h
    · exact hcondition part h
    · exact htrue
    · exact hfalse part h
  · exact fun children h => step _ h
  · intro value arms hvalue harms
    refine step _ fun part hpart => ?_
    simp only [parts, List.mem_append, Option.mem_toList] at hpart
    exact hpart.elim (hvalue part) (harms part)
  · intro body handlers cleanup hbody hhandlers hcleanup
    refine step _ fun part hpart => ?_
    simp only [parts, List.cons_append, List.mem_append, List.mem_cons, Option.mem_toList] at hpart
    rcases hpart with rfl | h | h
    · exact hbody
    · exact hhandlers part h
    · exact hcleanup part h
  · exact fun children h => step _ h
  · simp
  · exact fun _ _ hop hrest => List.forall_mem_cons.mpr ⟨hop, hrest⟩
  · simp
  · simp

end Operation

structure Parameter where
  name : String
  type : String
  attributes : List String := []
  deriving DecidableEq, Inhabited

/-- The declaration of a routine. -/
structure Declaration where
  name : String
  containingType : String := ""
  namespaceName : String := ""
  params : List Parameter := []
  /-- Absent for a routine that returns nothing. -/
  returnType : Option String := none
  attributes : List String := []
  file : Option String := none
  span : Span := {}
  /-- Absent for a routine whose body is not known. -/
  body : Option Operation := none
  deriving Inhabited

namespace Declaration

def methodName (d : Declaration) : MethodName := ⟨d.namespaceName, d.containingType, d.name⟩

def qualifiedName (d : Declaration) : String :=
  qualify [d.namespaceName, d.containingType, d.name]

/-- Whether the routine returns nothing; `void` may be written in any case. -/
def returnsVoid (d : Declaration) : Bool :=
  match d.returnType with
  | none => true
  | some type => type.toList.map Char.toLower == ['v', 'o', 'i', 'd']

theorem qualified_methodName (d : Declaration) : d.methodName.qualified = d.qualifiedName := rfl

end Declaration

structure Program where
  routines : List Declaration
  deriving Inhabited

end AmbientScope
