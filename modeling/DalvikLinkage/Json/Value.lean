/-!
# JSON values

A document as a tree. Members of an object stay in order and may repeat, because whether a repeated
name is an error is for the reader of the object to say.
-/
namespace DalvikLinkage.Json

/-- A JSON value. A number is kept only if it is an integer; a string, or the name of a member, only
if it is a text, that is, if its escapes pair all surrogates. -/
inductive Value
  | null
  | bool (value : Bool)
  | number (integer : Option Int)
  | string (text : Option String)
  | array (elements : List Value)
  | object (members : List (Option String × Value))
  deriving Repr

end DalvikLinkage.Json
