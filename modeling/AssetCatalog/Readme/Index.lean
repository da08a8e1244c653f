import AssetCatalog.Readme.Feature
import AssetCatalog.Readme.Interface

/-! Indexes of categories and subcategories: lists of assets with the first lines of their overviews. -/

namespace AssetCatalog.Readme

variable (isComponent : Bool) (folder : Path)

structure IndexItem where
  name : String
  overview : String
  link : String
deriving DecidableEq, Repr, Inhabited

def typeOf : String := if isComponent then "component" else "pipeline"

def sourceName : String := typeOf isComponent ++ ".py"

def typeTitle : String := if isComponent then "Components" else "Pipelines"

def linkTo (folder : String) : String := s!"./{folder}/README.md"

def displayName : Run Value := do
  let file := folder.below Metadata.fileName
  let v ← Metadata.loadYaml file
  let there ← if v.truthy then Run.ofExcept (v.mentions "name") else pure false
  if there then Run.ofExcept (v.need "name")
  else throw (.invalid s!"Required `name` field not found in {file.name}")

def indexItem : Run (Option IndexItem) := do
  let source := folder.below (sourceName isComponent)
  let work : Run (Option IndexItem) := do
    match ← findFunction source (typeOf isComponent) with
    | none =>
      Run.log .warning s!"No function found in {source.text}"
      pure none
    | some function =>
      match ← extractInterface source function with
      | none =>
        Run.log .warning s!"Could not extract function metadata from {source.text}"
        pure none
      | some i =>
        let name ← Run.ofExcept (titleOf (← displayName folder))
        let first := Text.trim ((Text.split "\n" i.summary.overview).headD "")
        pure (some { name, overview := Text.take lineWidth first, link := linkTo folder.name })
  tryCatch work fun _ => do
    Run.log .warning s!"Error extracting info from {folder.text}"
    pure none

def skips : Bool := Text.startsWith folder.name "__"

def isReserved : Bool := folder.name = "shared" || folder.name = "tests"

def holdsAsset : Run Bool := do
  if ← Run.exists? (folder.below (sourceName isComponent)) then
    Run.exists? (folder.below Metadata.fileName)
  else pure false

def assetFoldersAmong (entries : List Path) : Run (List Path) :=
  entries.filterM fun p => do
    if (← Run.isFolder p) && !skips p && !isReserved p then holdsAsset isComponent p else pure false

def assetFolders : Run (List Path) := do
  assetFoldersAmong isComponent (← Run.folderItems folder)

def isSubcategory : Run Bool := do
  let found ← (← Run.folderItems folder).filterM fun p => do
    if (← Run.isFolder p) && !skips p && !isReserved p then
      Run.exists? (p.below (sourceName isComponent))
    else pure false
  pure !found.isEmpty

def categoryFoldersAmong (entries : List Path) :
    Run (List Path × List Path) := do
  let inside ← entries.filterM fun p => do pure ((← Run.isFolder p) && !skips p)
  let assets ← inside.filterM (holdsAsset isComponent)
  let others := inside.filter fun p => !assets.contains p
  let subcategories ← others.filterM (isSubcategory isComponent)
  pure (assets, subcategories)

def categoryFolders : Run (List Path × List Path) := do
  categoryFoldersAmong isComponent (← Run.folderItems folder)

def indexItems (folders : List Path) : Run (List IndexItem) := do
  let items ← folders.mapM (indexItem isComponent)
  pure ((items.filterMap id).mergeSort fun a b => Text.le a.name b.name)

def itemLine (i : IndexItem) : String := s!"- [{i.name}]({i.link}): {i.overview}\n"

def groupLine (group : String × String) : String := s!"- [{group.1}]({group.2})\n"

def checkExists : Run Unit := do
  if !(← Run.exists? folder) then
    throw (.invalid s!"Required directory not found: {folder.text}")

def categoryText (title : String) (isComponent : Bool) (items : List IndexItem)
    (subcategories : List (String × String)) : String :=
  let type := typeTitle isComponent
  let below :=
    if subcategories.isEmpty then ""
    else "## Subcategories\n\n" ++ String.join (subcategories.map groupLine)
  s!"# {title} {type}\n\nThis directory contains {Text.lower type} in the **{title}** category:\n\n" ++
    String.join (items.map itemLine) ++ below

def subcategoryText (title : String) (isComponent : Bool) (items : List IndexItem) : String :=
  let type := typeTitle isComponent
  s!"# {title}\n\nThis subcategory contains {Text.lower type} in the **{title}** group:\n\n" ++
    String.join (items.map itemLine)

def categoryIndexOf (isComponent : Bool) (found : List Path × List Path) :
    Run String := do
  let items ← indexItems isComponent found.1
  let named := found.2.map fun p => (formatTitle p.name, linkTo p.name)
  let named := named.mergeSort fun a b => Text.le a.1 b.1
  pure (categoryText (formatTitle folder.name) isComponent items named)

def categoryIndex (isComponent : Bool) : Run String := do
  checkExists folder
  categoryIndexOf folder isComponent (← categoryFolders isComponent folder)

def subcategoryIndexOf (isComponent : Bool) (assets : List Path) : Run String := do
  let items ← indexItems isComponent assets
  pure (subcategoryText (formatTitle folder.name) isComponent items)

def subcategoryIndex (isComponent : Bool) : Run String := do
  checkExists folder
  subcategoryIndexOf folder isComponent (← assetFolders isComponent folder)

end AssetCatalog.Readme
