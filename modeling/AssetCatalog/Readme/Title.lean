import AssetCatalog.Text.Case
import AssetCatalog.Text.Wrap
import AssetCatalog.Value.Access

/-! Titles from the names of things, and texts that fit the width of a page. -/

namespace AssetCatalog.Readme

def splitCamel : List Char → List Char
  | a :: b :: cs =>
    if a.isLower && b.isUpper then a :: ' ' :: splitCamel (b :: cs) else a :: splitCamel (b :: cs)
  | cs => cs

def acronyms : List String := ["KFP", "API", "URL", "ID", "UI", "CI", "CD"]

def titleWord (w : String) : String :=
  if acronyms.contains (Text.upper w) then Text.upper w else Text.capitalize w

def formatTitle (name : String) : String :=
  let spaced := (splitCamel name.toList).map fun c => if c = '_' || c = '-' then ' ' else c
  Text.join " " ((Text.words (String.ofList spaced)).map titleWord)

def titleOf : Value → Except Fault String
  | .text s => pure (formatTitle s)
  | v => throw (.wrongKind s!"expected string or bytes-like object, got '{v.kindName}'")

def lineWidth : Nat := 120

def wrapText (width : Int) (s : String) : Except Fault String :=
  if s = "" then pure ""
  else if width ≤ 0 then throw (.invalid s!"invalid width {width} (must be > 0)")
  else pure (Text.wrap width.toNat s)

def dividesHeading (c : Char) : Bool :=
  c = '-' || Text.isBlank c || c = '(' || c = '\x7b' || c = '[' || c = '<'

def headingPieces : List Char → List (List Char)
  | [] => []
  | c :: cs =>
    match headingPieces cs with
    | (d :: ds) :: rest =>
      if dividesHeading c = dividesHeading d then (c :: d :: ds) :: rest
      else [c] :: (d :: ds) :: rest
    | rest => [c] :: rest

def headingPiece : List Char → String
  | [] => ""
  | c :: cs => Text.upper (String.singleton c) ++ Text.lower (String.ofList cs)

def headingCase (s : String) : String := String.join ((headingPieces s.toList).map headingPiece)

end AssetCatalog.Readme
