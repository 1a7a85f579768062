import DalvikLinkage.Symbol.Descriptor
import DalvikLinkage.Text.Pieces

/-!
# Member keys

A key names a field or a method wherever it is referred to: by the class it is looked up in, by its
name, and by its type or prototype. Keys are written `Lclass;->name:Type` and
`Lclass;->name(Args)Ret`, and ordered by class, name and type.
-/
namespace DalvikLinkage

/-- Names a field. -/
structure FieldKey where
  definingClass : String
  name : String
  fieldType : String
  deriving DecidableEq, Repr

/-- Names a method. -/
structure MethodKey where
  definingClass : String
  name : String
  prototype : String
  deriving DecidableEq, Repr

/-- The order of two triples of texts. -/
def compareTriples (a b : String × String × String) : Ordering :=
  (compare a.1 b.1).then ((compare a.2.1 b.2.1).then (compare a.2.2 b.2.2))

/-- Cuts `class->` off the start of a member's text. -/
def splitClass? (cs : List Char) : Option (List Char × List Char) := do
  let (owner, after) ← Descriptor.split? cs
  let rest ← Text.withoutStart? ['-', '>'] after
  return (owner, rest)

namespace FieldKey

/-- The written form. -/
def text (k : FieldKey) : String :=
  k.definingClass ++ "->" ++ k.name ++ ":" ++ k.fieldType

/-- Reads the written form. The name ends at the first colon. -/
def parse? (s : String) : Option FieldKey := do
  let (owner, rest) ← splitClass? s.toList
  match rest.dropWhile (· != ':') with
  | [] => none
  | _ :: typeText =>
    let (type, after) ← Descriptor.split? typeText
    if after.isEmpty then
      some ⟨String.ofList owner, String.ofList (rest.takeWhile (· != ':')), String.ofList type⟩
    else none

/-- The keys name the same member, whatever class it is looked up in. -/
def sameMember (a b : FieldKey) : Bool :=
  a.name == b.name && a.fieldType == b.fieldType

theorem sameMember_iff {a b : FieldKey} :
    a.sameMember b = true ↔ a.name = b.name ∧ a.fieldType = b.fieldType := by
  unfold sameMember
  rw [Bool.and_eq_true, beq_iff_eq, beq_iff_eq]

instance : Ord FieldKey where
  compare a b :=
    compareTriples (a.definingClass, a.name, a.fieldType) (b.definingClass, b.name, b.fieldType)

end FieldKey

namespace MethodKey

/-- The written form. -/
def text (k : MethodKey) : String :=
  k.definingClass ++ "->" ++ k.name ++ k.prototype

/-- Reads the written form. The name ends at the first opening parenthesis. -/
def parse? (s : String) : Option MethodKey := do
  let (owner, rest) ← splitClass? s.toList
  let signature := rest.dropWhile (· != '(')
  let (prototype, after) ← Descriptor.splitPrototype? signature
  if after.isEmpty then
    some ⟨String.ofList owner, String.ofList (rest.takeWhile (· != '(')),
      String.ofList prototype.chars⟩
  else none

/-- The keys name the same member, whatever class it is looked up in. -/
def sameMember (a b : MethodKey) : Bool :=
  a.name == b.name && a.prototype == b.prototype

theorem sameMember_iff {a b : MethodKey} :
    a.sameMember b = true ↔ a.name = b.name ∧ a.prototype = b.prototype := by
  unfold sameMember
  rw [Bool.and_eq_true, beq_iff_eq, beq_iff_eq]

/-- The prototype that the key's text starts with. -/
def signature? (k : MethodKey) : Option Descriptor.Prototype :=
  (Descriptor.splitPrototype? k.prototype.toList).map (·.1)

/-- The parameter types; none if the prototype cannot be read. -/
def parameterTypes (k : MethodKey) : List String :=
  (k.signature?.map fun p => p.parameters.map String.ofList).getD []

/-- The type of the result, if the prototype can be read. -/
def returnType? (k : MethodKey) : Option String :=
  k.signature?.map fun p => String.ofList p.result

instance : Ord MethodKey where
  compare a b :=
    compareTriples (a.definingClass, a.name, a.prototype) (b.definingClass, b.name, b.prototype)

end MethodKey
end DalvikLinkage
