import AssetCatalog.Text.Basic

/-! The layout of documentation texts: tabs, and the indentation that the source gives. -/

namespace AssetCatalog.Docstring

def expandTabs (column : Nat) : List Char → List Char
  | [] => []
  | '\t' :: cs =>
    let n := 8 - column % 8
    List.replicate n ' ' ++ expandTabs (column + n) cs
  | c :: cs => c :: expandTabs (if c = '\n' || c = '\r' then 0 else column + 1) cs

def leading (line : List Char) : Option Nat :=
  let content := line.dropWhile Text.isBlank
  if content.isEmpty then none else some (line.length - content.length)

def margin (lines : List (List Char)) : Option Nat := (lines.filterMap leading).min?

def trimEmpty (lines : List (List Char)) : List (List Char) :=
  ((lines.reverse.dropWhile List.isEmpty).reverse).dropWhile List.isEmpty

/-- The text without the indentation that its lines after the first have in common, and without
empty lines at its ends. -/
def unindent (s : String) : String :=
  match Text.splitList ['\n'] (expandTabs 0 s.toList) with
  | [] => ""
  | first :: rest =>
    let rest := match margin rest with
      | some n => rest.map (List.drop n)
      | none => rest
    let lines := trimEmpty (first.dropWhile Text.isBlank :: rest)
    Text.join "\n" (lines.map String.ofList)

end AssetCatalog.Docstring
