import DalvikLinkage.Text.Number
import DalvikLinkage.Text.Unprintable

/-!
# Quoted texts

A text between double quotes, as messages show it. Quotes, backslashes and the common controls have
escapes of one letter; other characters that are not shown as they are have their number in braces.
-/
namespace DalvikLinkage.Text

/-- A character as it stands in a quoted text. -/
def quotedChar (c : Char) : List Char :=
  match c with
  | '\x00' => ['\\', '0']
  | '\t' => ['\\', 't']
  | '\r' => ['\\', 'r']
  | '\n' => ['\\', 'n']
  | '"' => ['\\', '"']
  | '\\' => ['\\', '\\']
  | _ =>
    if isUnprintable c then ['\\', 'u', '\x7b'] ++ Number.hexDigits c.toNat ++ ['\x7d'] else [c]

/-- The text in quotes. -/
def quoted (text : String) : String :=
  String.ofList ('"' :: text.toList.flatMap quotedChar ++ ['"'])

end DalvikLinkage.Text
