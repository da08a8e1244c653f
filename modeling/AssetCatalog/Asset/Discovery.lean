import AssetCatalog.Run

/-! Where assets lie: each in a folder of its own below a category or a subcategory. -/

namespace AssetCatalog

structure Asset where
  path : Path
  category : String
  subcategory : Option String := none
  name : String
deriving DecidableEq, Repr, Inhabited

namespace Asset

def reservedNames : List String := ["tests", "shared"]

def isHidden (name : String) : Bool :=
  Text.startsWith name "_" || Text.startsWith name "."

def openFolders (p : Path) : Run (List Path) := do
  (← Run.folderItems p).filterM fun q => do
    pure ((← Run.isFolder q) && !isHidden q.name)

/-- What an item of a category is: an asset, or a subcategory with its assets, told apart by whether a
file of the given name is there. -/
def layoutAt (fileName : String) (category item : Path) : Run (List Asset) := do
  let file := item.below fileName
  if ← Run.exists? file then
    pure [{ path := file, category := category.name, name := item.name }]
  else
    let inside := (← openFolders item).filter fun q => !reservedNames.contains q.name
    let held ← inside.filterM fun q => Run.exists? (q.below fileName)
    pure (held.map fun q =>
      { path := q.below fileName, category := category.name, subcategory := some item.name,
        name := q.name })

def layout (base : Path) (fileName : String) : Run (List Asset) := do
  let categories ← openFolders base
  let found ← categories.mapM fun category => do
    let items ← openFolders category
    let assets ← items.mapM (layoutAt fileName category)
    pure assets.flatten
  pure found.flatten

def discover (base : Path) (type : String) : Run (List Asset) := do
  if ← Run.exists? base then layout base (type ++ ".py") else pure []

def withMetadata (kind : String) (base : Path) : Run (List String) := do
  let root := base.below kind
  if ← Run.exists? root then
    let found ← layout root "metadata.yaml"
    pure (found.map fun a =>
      Text.join "/" ([kind, a.category] ++ a.subcategory.toList ++ [a.name]))
  else pure []

def allWithMetadata (base : Path) : Run (List String) := do
  let components ← withMetadata "components" base
  let pipelines ← withMetadata "pipelines" base
  pure (components ++ pipelines)

def submodules (p : Path) : Run (List String) := do
  if ← Run.exists? p then
    let items ← (← Run.folderItems p).filterM fun q => do
      if ← Run.isFolder q then
        pure ((← Run.exists? (q.below "__init__.py")) && !Text.startsWith q.name "_")
      else pure false
    pure (Text.sort (items.map Path.name))
  else pure []

def targets (given : List String) : Run (List Path) := do
  let site ← read
  if given.isEmpty then
    [site.repository.below "components", site.repository.below "pipelines"].filterM Run.exists?
  else
    given.mapM fun raw => do
      let p := (Path.ofText raw).resolve site.repository
      if ← Run.exists? p then pure p
      else throw (.noFile (some s!"Specified path does not exist: {raw}"))

def folderOf (type : String) : String := type ++ "s"

/-- The file of the asset that a path names: the file itself, or the folder that holds it. -/
def resolveFile (type raw : String) : Run Path := do
  let site ← read
  let label := if type = "pipeline" then "Pipeline" else "Component"
  let fileName := type ++ ".py"
  let path := (Path.ofText raw).resolve site.repository
  let path ← if ← Run.isFolder path then pure (path.below fileName) else pure path
  let root := (Path.ofText (folderOf type)).resolve site.repository
  if !path.isWithin root then
    throw (.invalid s!"{label} path must be under {root.text}: {path.text}")
  if path.name ≠ fileName then
    throw (.invalid s!"{label} path must point to {fileName}: {path.text}")
  if !(← Run.exists? path) then
    throw (.invalid s!"{label} file not found: {path.text}")
  pure path

def ofFile (type : String) (file : Path) : Run Asset := do
  let site ← read
  let folder := folderOf type
  let fileName := type ++ ".py"
  let root := (Path.ofText folder).resolve site.repository
  let resolved ← Run.resolve file
  if resolved.name ≠ fileName then
    throw (.invalid s!"Expected {fileName} under {folder}: {file.text}")
  match resolved.relativeTo? root with
  | none => throw .outOfRange
  | some rel =>
    match rel.names with
    | [category, name, _] => pure { path := file, category, name }
    | [category, subcategory, name, _] =>
      pure { path := file, category, subcategory := some subcategory, name }
    | _ => throw (.invalid (s!"Path must be {folder}/<category>/<name>/{fileName} or " ++
        s!"{folder}/<category>/<subcategory>/<name>/{fileName}: {file.text}"))

end Asset

end AssetCatalog
