import AssetCatalog.Metadata.Basic

/-! Targets of the compile check: assets found by their metadata. -/

namespace AssetCatalog.Metadata

structure Target where
  metadataPath : Path
  modulePath : Path
  kind : String
  metadata : Value

def discover : Run (List (Path × String)) := do
  let root := (← read).repository
  let found ← [("components", "component"), ("pipelines", "pipeline")].mapM fun (folder, kind) => do
    let files ← Run.search (root.below folder) (· = fileName)
    pure (files.map fun f => (f, kind))
  pure found.flatten

/-- Whether a filter selects an asset: a folder selects what lies below it, anything else must be
the metadata or the module itself. -/
def filterSelects (folder metadata module : Path) (f : Path) : Run Bool := do
  if ← Run.isFolder f then pure (folder.isWithin f)
  else pure (metadata = f || module = f)

def anySelects (folder metadata module : Path) : List Path → Run Bool
  | [] => pure false
  | f :: fs => do
    if ← filterSelects folder metadata module f then pure true
    else anySelects folder metadata module fs

def selected (filters : List Path) (file module : Path) : Run Bool := do
  if filters.isEmpty then pure true
  else anySelects (← Run.resolve file.parent) (← Run.resolve file) (← Run.resolve module) filters

def moduleOf (file : Path) (kind : String) : Path :=
  file.parent.below (if kind = "component" then "component.py" else "pipeline.py")

def complete (file : Path) (kind : String) (metadata : Value) : Run (Option Target) := do
  let module := moduleOf file kind
  if ← Run.exists? module then
    pure (some { metadataPath := file, modulePath := module, kind, metadata })
  else
    Run.log .error s!"Expected module {module.text} not found for metadata {file.text}"
    pure none

def targetOf (flagless : Bool) (filters : List Path) (file : Path) (kind : String) :
    Run (Option Target) := do
  let metadata ← load file
  if !(← Run.ofExcept (wantsCompilation flagless metadata)) then
    Run.log .debug s!"Skipping {file.text} (compile_check disabled)."
    pure none
  else if ← selected filters file (moduleOf file kind) then complete file kind metadata
  else pure none

def targets (discovered : List (Path × String)) (flagless : Bool) (filters : List String) :
    Run (List Target) := do
  let root := (← read).repository
  let filters := filters.map fun f => (Path.ofText f).resolve root
  let found ← discovered.mapM fun (file, kind) => targetOf flagless filters file kind
  pure (found.filterMap id)

end AssetCatalog.Metadata
