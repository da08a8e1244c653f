import AssetCatalog.Arguments
import AssetCatalog.Number.Decimal
import AssetCatalog.Text.Case
import AssetCatalog.Wheel.Archive

/-! Checks of a built package: what it has to hold and what its metadata have to say. -/

namespace AssetCatalog.Wheel

variable (names : List String) (metadata : String)

structure Findings where
  messages : List String := []
  errors : List String := []
deriving DecidableEq, Repr, Inhabited

namespace Findings

def append (a b : Findings) : Findings :=
  { messages := a.messages ++ b.messages, errors := a.errors ++ b.errors }

def when (condition : Bool) (message error : String) : Findings :=
  if condition then { messages := [message] } else { errors := [error] }

end Findings

def holding (part : String) (names : List String) : List String :=
  names.filter fun n => Text.contains n part

def infoPart : String := ".dist-info/"

def checkInfo : Findings :=
  match holding infoPart names with
  | [] => { errors := ["Error: No .dist-info directory found"] }
  | n :: _ =>
    let folder := (Text.split "/" n).headD ""
    { messages := [s!"✓ Found .dist-info directory: {folder}"] }

def checkFolder (label : String) (names : List String) : Findings :=
  let found := holding (label ++ "/") names
  .when (!found.isEmpty) s!"✓ Found {label} directory ({found.length} files)"
    s!"Error: No {label}/ directory found"

def checkFolders : Findings :=
  (checkFolder "components" names).append (checkFolder "pipelines" names)

def categories : List String := ["training", "evaluation", "data_processing", "deployment"]

def checkPackages : Findings :=
  let packages := names.filter fun n => Text.endsWith n "__init__.py"
  if packages.isEmpty then { errors := ["Error: No __init__.py files found"] }
  else
    let has (category : String) : Bool :=
      packages.any fun n =>
        Text.contains n s!"kfp_components/components/{category}/__init__.py" ||
          Text.contains n s!"kfp_components/pipelines/{category}/__init__.py"
    { messages := s!"✓ Found {packages.length} __init__.py files" ::
        (categories.filter has).map fun c => s!"  ✓ Found {c} category init files" }

def checkModules : Findings :=
  let modules := names.filter fun n => Text.endsWith n ".py" && !Text.endsWith n "__init__.py"
  if modules.isEmpty then {} else { messages := [s!"✓ Found {modules.length} Python modules"] }

def packageName : String := "kfp-components"

def checkPackageName : Findings :=
  .when (Text.contains metadata s!"Name: {packageName}") s!"✓ Package name verified: {packageName}"
    s!"Error: Expected package name '{packageName}' not found in metadata"

def checkVersion : Findings :=
  match (Text.split "\n" metadata).find? fun l => Text.startsWith l "Version:" with
  | some l => { messages := [s!"✓ {l}"] }
  | none => { errors := ["Error: No version found in metadata"] }

def checkRequirement : Findings :=
  .when (Text.contains metadata "Requires-Python:") "✓ Python requirement specified"
    "Error: No Python requirement found in metadata"

def checkDependency : Findings :=
  .when (Text.contains (Text.lower metadata) "kfp") "✓ KFP dependency found"
    "Warning: KFP dependency not found in metadata"

def checkMetadata : Findings :=
  if metadata = "" then {}
  else
    (((checkPackageName metadata).append (checkVersion metadata)).append
      (checkRequirement metadata)).append (checkDependency metadata)

def checkNames : Findings :=
  (((checkInfo names).append (checkFolders names)).append (checkPackages names)).append
    (checkModules names)

def metadataName? : Option String :=
  (holding infoPart names).find? fun n => Text.endsWith n "/METADATA"

def missingMetadata : Findings :=
  if !(holding infoPart names).isEmpty && (metadataName? names).isNone then
    { errors := ["Error: No METADATA file found"] }
  else {}

def check : Findings :=
  ((missingMetadata names).append (checkNames names)).append (checkMetadata metadata)

def megabytes (size : Nat) : String :=
  Binary64.fixed 2 (Binary64.ofRatio false size (1024 * 1024)) ++ " MB"

def describe (size : Nat) (names : List String) : List String :=
  let sample := (names.filter fun n => !Text.contains n infoPart).take 10
  [s!"✓ Wheel size: {megabytes size}", "\nSample contents (first 10 non-metadata files):"] ++
    sample.map ("  - " ++ ·)

def verdict (name : String) (size : Nat) (names : List String) (metadata : String) :
    Bool × List String :=
  let found := check names metadata
  let ok := found.errors.isEmpty
  (ok, [s!"Validating package: {name}"] ++ found.messages ++ describe size names ++
    (if ok then ["\nAll validations passed!"] else "\nValidation issues:" :: found.errors))

def metadataText (a : Archive) : Except Damage String := do
  match metadataName? a.names with
  | none => pure ""
  | some name =>
    let bs ← a.extract name
    match String.fromUTF8? ⟨bs.toArray⟩ with
    | some s => pure s
    | none => throw .unreadable

def broken : Bool × List String := (false, ["Error: Failed to validate wheel"])

def judge (p : Path) (bytes : List UInt8) : Bool × List String :=
  let invalid : Bool × List String := (false, [s!"Error: Invalid wheel file: {p.text}"])
  match Archive.ofBytes? bytes with
  | none => invalid
  | some a =>
    match metadataText a with
    | .ok metadata => verdict p.name a.bytes.length a.names metadata
    | .error .contradictory => invalid
    | .error .unreadable => broken

def validate (p : Path) : Run (Bool × List String) := do
  if !(← Run.exists? p) then pure (false, [s!"Error: Wheel file not found: {p.text}"])
  else match ← Run.attempt (Run.content p) with
    | .error _ => pure broken
    | .ok c => pure (judge p c.toBytes)

def command (words : List String) : Run Unit := do
  let args ← CommandLine.read [.positional "wheel_path"] words
  let (ok, lines) ← validate (Path.ofText (args.textOf "wheel_path" ""))
  Run.printAll lines
  throw (.exit (if ok then 0 else 1))

end AssetCatalog.Wheel
