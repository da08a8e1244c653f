import AssetCatalog.Source.Token
import AssetCatalog.Text.Case

/-! Which names an asset, a category and a subcategory may have: nothing that leads out of a folder. -/

namespace AssetCatalog.Skeleton

def softKeywords : List String := ["_", "case", "match"]

def isSnakeText (s : String) : Bool :=
  let inner := s.toList.filter (· ≠ '_')
  !inner.isEmpty && inner.all Text.isAlphanumeric

def startsWithLetter (s : String) : Bool :=
  match s.toList with
  | c :: _ => Text.isLetter c
  | [] => false

def checkPlain (label s : String) : Except Fault Unit := do
  if s.toList.contains '/' || s.toList.contains '\\' then
    throw (.invalid s!"{label} cannot contain path separators (/, \\)")
  if s.toList.contains '.' then throw (.invalid s!"{label} cannot contain dots (.)")

def checkSmall (label s : String) : Except Fault Unit := do
  if s ≠ Text.lower s then throw (.invalid s!"{label} must be lowercase (snake_case)")

def characterRule (label : String) : Fault :=
  .invalid s!"{label} can only contain letters, numbers, and underscores"

def checkName (name : String) : Except Fault Unit := do
  if name = "" then throw (.invalid "Name cannot be empty")
  checkPlain "Name" name
  if !Text.isIdentifier name.toList then
    throw (.invalid s!"Name '{name}' is not a valid Python identifier")
  if Source.keywords.contains name || softKeywords.contains name then
    throw (.invalid s!"Name '{name}' is a Python keyword and cannot be used")
  checkSmall "Name" name
  if !isSnakeText name then throw (characterRule "Name")

def checkGroup (label group : String) : Except Fault Unit := do
  checkPlain label group
  checkSmall label group
  if !isSnakeText group || !startsWithLetter group then throw (characterRule label)

def checkCategory (category : String) : Except Fault Unit := do
  if category = "" then throw (.invalid "Category cannot be empty")
  checkGroup "Category" category

def reservedNames : List String := ["shared", "tests"]

def checkSubcategory (subcategory : String) : Except Fault Unit := do
  if subcategory = "" then throw (.invalid "Subcategory cannot be empty")
  if reservedNames.contains subcategory then
    let all := Text.join ", " reservedNames
    throw (.invalid s!"Subcategory cannot be named '{subcategory}' (reserved names: {all})")
  checkGroup "Subcategory" subcategory

end AssetCatalog.Skeleton
