/-!
# Cutting texts into pieces

Cutting at separators, and taking a known start or end off a text. The functions work on lists of
characters; `ofPieces` puts what was cut back together.
-/
namespace DalvikLinkage.Text

/-- The pieces between separators. There is one more piece than there are separators, so an empty
text has one empty piece. -/
def pieces (isSeparator : Char → Bool) : List Char → List (List Char)
  | [] => [[]]
  | c :: rest =>
    if isSeparator c then [] :: pieces isSeparator rest
    else match pieces isSeparator rest with
      | [] => [[c]]
      | piece :: others => (c :: piece) :: others

/-- The pieces joined with one separator between neighbours. -/
def ofPieces (separator : List Char) : List (List Char) → List Char
  | [] => []
  | [piece] => piece
  | piece :: others => piece ++ separator ++ ofPieces separator others

/-- What follows the last separator; the whole text if there is none. -/
def lastPiece (isSeparator : Char → Bool) (cs : List Char) : List Char :=
  (pieces isSeparator cs).getLastD []

/-- The text without `start`, if it begins with it. -/
def withoutStart? : List Char → List Char → Option (List Char)
  | [], cs => some cs
  | _ :: _, [] => none
  | s :: start, c :: cs => if s = c then withoutStart? start cs else none

/-- The text without `ending`, if it ends with it. -/
def withoutEnd? (ending cs : List Char) : Option (List Char) :=
  if ending.isSuffixOf cs then some (cs.take (cs.length - ending.length)) else none

/-- The texts joined with `separator` between neighbours. -/
def join (separator : String) (texts : List String) : String :=
  String.ofList (ofPieces separator.toList (texts.map String.toList))

end DalvikLinkage.Text
