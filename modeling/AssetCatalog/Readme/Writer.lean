import AssetCatalog.Arguments
import AssetCatalog.Readme.Index
import AssetCatalog.Readme.Page

/-! Keeping pages and indexes up to date. What follows a mark on a page is the work of its authors and stays. -/

namespace AssetCatalog.Readme

def customMark : String := "<!-- custom-content -->"

structure Target where
  isComponent : Bool
  source : Path
  page : Path
  category : Path
  subcategory : Option Path
deriving Repr, Inhabited

def foldersAbove (source : Path) : Path × Option Path :=
  let parent := source.parent
  if ["components", "pipelines"].contains parent.parent.parent.name then
    (parent.parent, some parent)
  else (parent, none)

def Target.of (component pipeline output : Option Path) : Run Target := do
  let build (isComponent : Bool) (source : Path) : Target :=
    let (category, subcategory) := foldersAbove source
    { isComponent, source, page := output.getD (source.below "README.md"), category, subcategory }
  match component, pipeline with
  | none, none =>
    Run.log .error "Either component_dir or pipeline_dir must be provided"
    throw (.invalid "Either component_dir or pipeline_dir must be provided")
  | some _, some _ =>
    Run.log .error "Cannot specify both component_dir and pipeline_dir"
    throw (.invalid "Cannot specify both component_dir and pipeline_dir")
  | some p, none => pure (build true p)
  | none, some p => pure (build false p)

def customPart (text : String) : Option String :=
  (Text.cut? customMark text).map fun (_, after) => customMark ++ after

def customContent (page : Path) : Run (Option String) := do
  if ← Run.exists? page then
    match ← Run.attempt (Run.readText page) with
    | .ok text => pure (customPart text)
    | .error _ =>
      Run.log .warning "Error reading existing README for custom content"
      pure none
  else pure none

def currentText (file : Path) : Run (Option String) := do
  if ← Run.exists? file then
    match ← Run.attempt (Run.readText file) with
    | .ok text => pure (some text)
    | .error _ =>
      Run.log .warning s!"Error reading {file.text}"
      pure none
  else pure none

def withCustom (text : String) (custom : Option String) : String :=
  match custom with
  | some c => if c = "" then text else text ++ "\n\n" ++ c
  | none => text

def differs (file : Path) (expected : String) : Run Bool := do
  let actual ← currentText file
  if actual = some expected then pure false
  else
    Run.log .warning s!"Out of sync: {file.text}"
    pure true

def writePage (page : Path) (text : String) : Run Unit := do
  let custom ← customContent page
  if custom.isSome then Run.log .info "Preserved custom content from existing README"
  Run.makeFolders page.parent
  Run.writeText page (withCustom text custom)
  Run.log .info s!"README.md generated successfully at {page.text}"

def writeIndex (file : Path) (text label : String) : Run Unit := do
  if ← Run.exists? file then
    Run.log .info s!"{label} exists at {file.text}, regenerating entries."
  else Run.log .info s!"{label} does not exist yet at {file.text}, creating new file"
  match ← Run.attempt (Run.writeText file text) with
  | .ok _ => Run.log .info s!"{label} generated at {file.text}"
  | .error _ =>
    Run.log .error s!"Could not write {Text.lower label}"
    throw (.exit 2)

/-- Brings the pages up to date, or only compares them; the answer tells whether any differs. -/
def update (t : Target) (fix : Bool) : Run Bool := do
  let source := t.source.below (sourceName t.isComponent)
  match ← findFunction source (typeOf t.isComponent) with
  | none =>
    Run.log .error s!"No component/pipeline function found in {source.text}"
    throw (.exit 2)
  | some function =>
    match ← extractInterface source function with
    | none =>
      Run.log .error s!"Could not extract metadata from function {function}"
      throw (.exit 2)
    | some i =>
      let text ← generatePage i.description t.source
      let pageDiffers ← differs t.page (withCustom text (← customContent t.page))
      let lower ← t.subcategory.mapM fun folder => do
        let text ← subcategoryIndex folder t.isComponent
        let file := folder.below "README.md"
        pure (file, text, ← differs file text)
      let indexText ← categoryIndex t.category t.isComponent
      let index := t.category.below "README.md"
      let indexDiffers ← differs index indexText
      let changed := pageDiffers || (lower.map fun l => l.2.2).getD false || indexDiffers
      if changed && fix then
        writePage t.page text
        match lower with
        | some (file, text, _) => writeIndex file text "Subcategory index"
        | none => pure ()
        writeIndex index indexText "Category index"
      pure changed

def folderComplaint (label fileName raw : String) : Run (Option String) := do
  let p := Path.ofText raw
  if !(← Run.exists? p) then pure (some s!"{label} directory '{raw}' does not exist")
  else if !(← Run.isFolder p) then pure (some s!"'{raw}' is not a directory")
  else if !(← Run.exists? (p.below fileName)) then
    pure (some s!"'{raw}' does not contain a {fileName} file")
  else if !(← Run.exists? (p.below "metadata.yaml")) then
    pure (some s!"'{raw}' does not contain a metadata.yaml file")
  else pure none

def updateCommand (words : List String) : Run Unit := do
  let args ← CommandLine.read
    [ { Argument.option "--output" with flags := ["-o", "--output"] },
      { Argument.switch "--verbose" with flags := ["-v", "--verbose"] }, .switch "--fix" ]
    words
    [ { Argument.option "--component" with complaint := folderComplaint "Component" "component.py" },
      { Argument.option "--pipeline" with complaint := folderComplaint "Pipeline" "pipeline.py" } ]
  let path (name : String) : Option Path := (args.last? name).map Path.ofText
  let target ← Target.of (path "--component") (path "--pipeline") (path "--output")
  let fix := args.has "--fix"
  if !(← update target fix) then
    Run.log .info "All README files are in sync."
    throw (.exit 0)
  else if fix then
    Run.log .info "README files updated successfully."
    throw (.exit 0)
  else
    Run.log .error "README files are out of sync. Run with --fix to update them."
    throw (.exit 1)

end AssetCatalog.Readme
