import AssetCatalog.Asset.Discovery
import AssetCatalog.Image.Allowlist
import AssetCatalog.Image.TagCheck
import AssetCatalog.Value.Order

/-! The report on the base images of assets, against a list of permitted ones. -/

namespace AssetCatalog.Image

structure AssetImages where
  category : String
  name : String
  type : String
  path : String
  images : List Value := []
  invalid : List Value := []
  errors : List String := []
  compiled : Bool := false

def compileAll (scratch : Path) (moduleName : String) :
    List Member → Nat × Nat × List Value → Run (Nat × Nat × List Value)
  | [], acc => pure acc
  | m :: ms, (good, bad, images) => do
    match m.specification s!"{scratch.text}/{moduleName}_{m.name}.yaml" with
    | .error e =>
      Run.print s!"  Warning: Failed to compile <{m.name}>: {e.message}"
      compileAll scratch moduleName ms (good, bad + 1, images)
    | .ok spec =>
      match ofCompiled spec with
      | .error e =>
        Run.print s!"  Warning: Failed to compile <{m.name}>: {e.message}"
        compileAll scratch moduleName ms (good + 1, bad + 1, images)
      | .ok found =>
        compileAll scratch moduleName ms
          (good + 1, bad, found.foldl (fun acc i => Value.addMember i acc) images)

def assetImages (asset : Asset) (file : Path) (type : String) (allowlist : Allowlist) :
    Run AssetImages := do
  let scratch := (← read).scratch
  let start : AssetImages :=
    { category := asset.category, name := asset.name, type, path := asset.path.text }
  match ← Run.attempt (Run.loadModule file) with
  | .error e => pure { start with errors := [s!"Failed to load module: {e.message}"] }
  | .ok members =>
    let members := Asset.membersOfType type members
    if members.isEmpty then
      pure { start with errors := [s!"No @dsl.{type} decorated functions found"] }
    else
      let name := s!"{asset.category}_{asset.name}_{type}"
      let (good, bad, images) ← compileAll scratch name members (0, 0, [])
      let total := members.length
      let errors :=
        if good = 0 then [s!"All {total} function(s) failed to compile"]
        else if bad ≠ 0 then [s!"{bad}/{total} function(s) failed to compile ({good} succeeded)"]
        else []
      let invalid ← Run.ofExcept (invalidOf (some allowlist) images)
      let images ← Run.ofExcept (Value.sorted images)
      pure { start with images, invalid := Value.sortMembers invalid, errors, compiled := good ≠ 0 }

def printAssetImages (r : AssetImages) : Run Unit := do
  if !r.errors.isEmpty then r.errors.forM fun e => Run.print s!"    Error: {e}"
  else if !r.images.isEmpty then
    r.images.forM fun i =>
      let status := if r.invalid.contains i then " [INVALID]" else ""
      Run.print s!"    Base image: {i.plain}{status}"
  else if r.compiled then Run.print "    No custom base image (using default)"

def rule (c : String) : String := Text.times 70 c

def process (a : Asset) (type : String) (allowlist : Allowlist) : Run AssetImages := do
  Run.print s!"  Processing: {a.category}/{a.name}"
  let r ← assetImages a a.path type allowlist
  printAssetImages r
  pure r

def processAll (assets : List Asset) (type label : String) (allowlist : Allowlist) :
    Run (List AssetImages) := do
  if assets.isEmpty then pure []
  else
    Run.printAll [rule "-", s!"Processing {label}", rule "-"]
    let results ← assets.mapM fun a => process a type allowlist
    Run.print ""
    pure results

def violations (results : List AssetImages) : List (AssetImages × Value) :=
  results.flatMap fun r => r.invalid.map fun i => (r, i)

def violationLines (v : AssetImages × Value) : List String :=
  [ s!"  {Text.titleCase v.1.type}: {v.1.category}/{v.1.name}",
    s!"    Path: {v.1.path}",
    s!"    Invalid image: {v.2.plain}", "" ]

def violationsHead (count : Nat) (place : String) : List String :=
  [ rule "=", "BASE IMAGE VIOLATIONS", rule "=", "",
    s!"Found {count} violation(s).", "",
    s!"Invalid base images ({count}):",
    "  Base images must be unset or match the allowlist.",
    s!"  Allowlist: {place}", "",
    "  To fix this issue, either:",
    "    1. Use an approved base image (e.g., 'ghcr.io/kubeflow/pipelines-components-<name>:<tag>')",
    "    2. Leave base_image unset to use the KFP SDK default image",
    s!"    3. Add an allowlist entry in {place}", "" ]

def violationsListed (vs : List (AssetImages × Value)) (place : String) : List String :=
  if vs.isEmpty then [] else violationsHead vs.length place ++ vs.flatMap violationLines

def printImages (total failed : Nat) (images : List Value) (invalid : List Value) :
    Run Unit := do
  if !images.isEmpty then
    Run.print "All unique base images found:"
    let sorted ← Run.ofExcept (Value.sorted images)
    sorted.forM fun i =>
      let status := if invalid.contains i then " [INVALID]" else " [VALID]"
      Run.print s!"  - {i.plain}{status}"
  else if total = 0 then pure ()
  else if failed > 0 then
    Run.print "No base images could be extracted (some assets failed to compile/load)"
  else Run.print "No custom base images found (all using defaults)"

def printVerdict (total failed violations : Nat) (place : String) : Run Int := do
  if total = 0 then
    Run.printAll
      [ "No components or pipelines were discovered.",
        "Components should be at: components/<category>/<name>/component.py",
        "Pipelines should be at: pipelines/<category>/<name>/pipeline.py" ]
    pure 0
  else if violations > 0 then
    Run.printAll
      [ s!"FAILED: {violations} violation(s) found.",
        s!"  - {violations} invalid base image(s): must match the allowlist",
        "    (e.g., 'ghcr.io/kubeflow/pipelines-components-<name>:<tag>'), " ++
          "leave unset, or match the allowlist.",
        s!"    Allowlist: {place}" ]
    pure 1
  else if failed > 0 then
    Run.print s!"FAILED: {failed} asset(s) could not be processed. See errors above."
    pure 1
  else
    Run.print "SUCCESS: All base images are valid."
    pure 0

def printImageSummary (results : List AssetImages) (images : List Value) (place : String) :
    Run Int := do
  let violations := violations results
  Run.printAll (violationsListed violations place)
  let total := results.length
  let count (p : AssetImages → Bool) : Nat := (results.filter p).length
  let failed := count fun r => !r.errors.isEmpty
  let compiled := count AssetImages.compiled
  let withImages := count fun r => !r.images.isEmpty
  let withInvalid := count fun r => !r.invalid.isEmpty
  Run.printAll
    [ rule "=", "Summary", rule "=",
      s!"Total assets discovered: {total}",
      s!"Successfully compiled: {compiled}",
      s!"Failed to process: {failed}",
      s!"Assets with custom base images: {withImages}",
      s!"Assets with invalid base images: {withInvalid}", "" ]
  printImages total failed images (violations.map (·.2))
  Run.print ""
  printVerdict total failed violations.length place

structure Selection where
  allowlist : Allowlist
  place : Path
  components : List Asset
  pipelines : List Asset

def selection (words : List String) : Run Selection := do
  let args ← CommandLine.read
    [.option "--component", .option "--pipeline", .option "--allow-list"] words
  let site ← read
  let given := (args.last? "--allow-list").filter (· ≠ "")
  let place := (given.map Path.ofText).getD (Allowlist.standardPath site)
  let allowlist ← match given with
    | some _ => Allowlist.load place
    | none => pure Allowlist.standard
  Run.printAll
    [ rule "=", "Kubeflow Pipelines Base Image Validator", rule "=", "",
      s!"Allowlist: {place.text}", "" ]
  let chosenComponents := args.allOf "--component"
  let chosenPipelines := args.allOf "--pipeline"
  let (components, pipelines) ←
    if chosenComponents.isEmpty && chosenPipelines.isEmpty then do
      let components ← Asset.discover (site.repository.below "components") "component"
      Run.print s!"Discovered {components.length} component(s)"
      let pipelines ← Asset.discover (site.repository.below "pipelines") "pipeline"
      Run.print s!"Discovered {pipelines.length} pipeline(s)"
      pure (components, pipelines)
    else do
      let named (type : String) (raws : List String) : Run (List Asset) :=
        raws.mapM fun raw => do Asset.ofFile type (← Asset.resolveFile type raw)
      let components ← named "component" chosenComponents
      let pipelines ← named "pipeline" chosenPipelines
      Run.print s!"Selected {components.length} component(s)"
      Run.print s!"Selected {pipelines.length} pipeline(s)"
      pure (components, pipelines)
  Run.print ""
  pure { allowlist, place, components, pipelines }

def processSelection (s : Selection) : Run (List AssetImages) := do
  let first ← processAll s.components "component" "Components" s.allowlist
  let second ← processAll s.pipelines "pipeline" "Pipelines" s.allowlist
  pure (first ++ second)

def report (s : Selection) : Run Int := do
  let results ← processSelection s
  let images := (results.flatMap AssetImages.images).foldl (fun acc i => Value.addMember i acc) []
  printImageSummary results images s.place.text

def reportCommand (words : List String) : Run Int := do
  let s ← selection words
  report s

end AssetCatalog.Image
