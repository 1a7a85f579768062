import DalvikLinkage.Json.Fields
import DalvikLinkage.Json.Reader
import DalvikLinkage.Symbol.Key

/-!
# Linkage reports

The members that are referred to through a class that is defined but does not expose them. The check
only needs to know which members are referred to and what each type answers for a member; types that
resolve to no class are left out, since a missing class is another problem.
-/
namespace DalvikLinkage

/-- What a class answers to references made through it. -/
structure Exposure where
  hasField : FieldKey → Bool
  hasMethod : MethodKey → Bool

/-- References, and the classes they are resolved in. -/
structure SymbolTable where
  fieldReferences : List FieldKey
  methodReferences : List MethodKey
  resolve? : String → Option Exposure

namespace SymbolTable

/-- The field's class is defined and does not expose it. -/
def lacksField (t : SymbolTable) (key : FieldKey) : Bool :=
  match t.resolve? key.definingClass with
  | some c => !c.hasField key
  | none => false

/-- The method's class is defined and does not expose it. -/
def lacksMethod (t : SymbolTable) (key : MethodKey) : Bool :=
  match t.resolve? key.definingClass with
  | some c => !c.hasMethod key
  | none => false

/-- The missing fields, each once, in the order in which they are first referred to. -/
def missingFields (t : SymbolTable) : List FieldKey :=
  t.fieldReferences.eraseDups.filter t.lacksField

/-- The missing methods, each once, in the order in which they are first referred to. -/
def missingMethods (t : SymbolTable) : List MethodKey :=
  t.methodReferences.eraseDups.filter t.lacksMethod

end SymbolTable

/-- Missing members. -/
structure Report where
  missingFields : List FieldKey
  missingMethods : List MethodKey
  deriving DecidableEq, Repr

namespace Report

/-- The report on a table: what is missing, in the order of the keys. -/
def of (t : SymbolTable) : Report where
  missingFields := t.missingFields.mergeSort fun a b => (compare a b).isLE
  missingMethods := t.missingMethods.mergeSort fun a b => (compare a b).isLE

/-- Nothing is missing. -/
def isClean (r : Report) : Bool :=
  r.missingFields.isEmpty && r.missingMethods.isEmpty

/-- One line for each missing member, fields first. -/
def lines (r : Report) : List String :=
  r.missingFields.map (fun k => "missing field " ++ k.text) ++
    r.missingMethods.map (fun k => "missing method " ++ k.text)

/-- The lines, each with its end. -/
def text (r : Report) : String :=
  String.join (r.lines.map (· ++ "\n"))

open Json

/-- A field key in JSON; every field has to be there. -/
def fieldKeyOfJson? (v : Value) : Option FieldKey := do
  match ← v.allFields? ["defining_class", "name", "field_type"] with
  | [owner, name, type] => return ⟨← owner.text?, ← name.text?, ← type.text?⟩
  | _ => none

/-- A method key in JSON; every field has to be there. -/
def methodKeyOfJson? (v : Value) : Option MethodKey := do
  match ← v.allFields? ["defining_class", "name", "prototype"] with
  | [owner, name, prototype] => return ⟨← owner.text?, ← name.text?, ← prototype.text?⟩
  | _ => none

/-- A report in JSON; both lists have to be there, and their order is kept. -/
def ofJson? (v : Value) : Option Report := do
  match ← v.allFields? ["missing_fields", "missing_methods"] with
  | [fields, methods] =>
    return ⟨← fields.listOf? fieldKeyOfJson?, ← methods.listOf? methodKeyOfJson?⟩
  | _ => none

/-- The report that a JSON text is. -/
def parse? (text : String) : Option Report := do
  ofJson? (← Json.parse? text)

end Report
end DalvikLinkage
