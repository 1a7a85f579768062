import DalvikLinkage.Json.Value

/-!
# Records in JSON

A record is written as an object, whose members may come in any order, or as an array of its fields
in their order. Every name has to be a text. Members with other names are passed over, and a name
given twice is an error. What a missing field means is for the record to say.
-/
namespace DalvikLinkage.Json

/-- The value of the only member with that name; none if it is missing, an error if it repeats. -/
def member? (members : List (Option String × Value)) (name : String) : Option (Option Value) :=
  match members.filter (·.1 == some name) with
  | [] => some none
  | [m] => some (some m.2)
  | _ => none

/-- The fields of a record, none for each missing one. -/
def Value.fields? (names : List String) : Value → Option (List (Option Value))
  | .object members =>
    if members.all (·.1.isSome) then names.mapM (member? members) else none
  | .array elements =>
    if names.length < elements.length then none
    else
      some (elements.map some ++ List.replicate (names.length - elements.length) none)
  | _ => none

/-- The fields of a record that has to be complete. -/
def Value.allFields? (names : List String) (v : Value) : Option (List Value) := do
  (← v.fields? names).mapM id

/-- An integer of 32 bits. -/
def Value.int32? : Value → Option Int
  | .number (some n) => if -0x80000000 ≤ n ∧ n ≤ 0x7fffffff then some n else none
  | _ => none

def Value.text? : Value → Option String
  | .string text => text
  | _ => none

def Value.bool? : Value → Option Bool
  | .bool b => some b
  | _ => none

def Value.listOf? {α : Type} (element : Value → Option α) : Value → Option (List α)
  | .array elements => elements.mapM element
  | _ => none

/-- A value or null. -/
def Value.nullOr? {α : Type} (element : Value → Option α) : Value → Option (Option α)
  | .null => some none
  | v => (element v).map some

/-- A field of a record, with the value it has when it is missing. -/
def fieldOr {α : Type} (default : α) (decode : Value → Option α) : Option Value → Option α
  | none => some default
  | some v => decode v

end DalvikLinkage.Json
