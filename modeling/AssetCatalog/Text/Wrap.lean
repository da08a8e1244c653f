import AssetCatalog.Text.Basic

/-! Paragraphs filled up to a width. A word that is too long has a line of its own. -/

namespace AssetCatalog.Text

def fillFrom (width : Nat) (line : List Char) : List (List Char) → List (List Char)
  | [] => [line]
  | w :: ws =>
    if line.length + 1 + w.length ≤ width then fillFrom width (line ++ ' ' :: w) ws
    else line :: fillFrom width w ws

def fill (width : Nat) : List (List Char) → List (List Char)
  | [] => []
  | w :: ws => fillFrom width w ws

def fillParagraph (width : Nat) (paragraph : List Char) : List Char :=
  List.intercalate ['\n'] (fill width (wordList paragraph))

def wrap (width : Nat) (s : String) : String :=
  let paragraphs := splitList ['\n', '\n'] s.toList
  String.ofList (List.intercalate ['\n', '\n'] (paragraphs.map (fillParagraph width)))

end AssetCatalog.Text
