import DalvikLinkage.Text.Quoted

/-!
# What is anchored to instructions

Labels, and the entries of a method's debug information that belong to a code address.
-/
namespace DalvikLinkage.Body

/-- An entry of debug information. -/
inductive DebugItem
  | lineNumber (line : UInt32)
  | prologueEnd
  | epilogueBegin
  | startLocal (register : UInt16) (name type : Option String)
  | endLocal (register : UInt16)
  | restartLocal (register : UInt16)
  | setSourceFile (name : Option String)
  deriving DecidableEq, Repr

/-- Anything anchored to an instruction. -/
inductive Item
  | label (name : String)
  | debug (item : DebugItem)
  deriving DecidableEq, Repr

/-- A name that may be missing, as messages show it. -/
def optionalName : Option String → String
  | none => "None"
  | some name => "Some(" ++ Text.quoted name ++ ")"

/-- The entry as messages show it. -/
def DebugItem.text : DebugItem → String
  | .lineNumber line => s!"LineNumber({line.toNat})"
  | .prologueEnd => "PrologueEnd"
  | .epilogueBegin => "EpilogueBegin"
  | .startLocal register name type =>
    "StartLocal \x7b register: " ++ toString register.toNat ++ ", name: " ++ optionalName name ++
      ", type_descriptor: " ++ optionalName type ++ " \x7d"
  | .endLocal register => s!"EndLocal({register.toNat})"
  | .restartLocal register => s!"RestartLocal({register.toNat})"
  | .setSourceFile name => "SetSourceFile(" ++ optionalName name ++ ")"

/-- The item as messages show it. -/
def Item.text : Item → String
  | .label name => "Label(" ++ Text.quoted name ++ ")"
  | .debug item => "Debug(" ++ item.text ++ ")"

end DalvikLinkage.Body
