import AssetCatalog.Arguments
import AssetCatalog.Asset.Decorator
import AssetCatalog.Asset.Discovery
import AssetCatalog.Asset.Gathering

/-! Examples: pipelines beside an asset that show its use, and have to compile. -/

namespace AssetCatalog.Example

def fileName : String := "example_pipelines.py"

def gatherFile (t : Tree) (repository : Path) (g : Gathering) (p : Path) : Gathering :=
  if g.found.contains p || !t.isFile p.names then g
  else (g.noteOutside repository p).add repository p

def gatherTarget (t : Tree) (repository : Path) (g : Gathering) (target : Path) :
    Gathering :=
  (Path.sortByText (Gathering.named t (Gathering.searchRoot t target) fileName)).foldl
    (gatherFile t repository) g

def gather (t : Tree) (repository : Path) (targets : List Path) : Gathering :=
  targets.foldl (gatherTarget t repository) {}

def pipelines (file : Path) (members : List Member) : Run (List Member) := do
  let names := Asset.functionsWith "pipeline" (← Asset.parseFile file)
  pure (names.filterMap fun n => members.find? fun m => m.name = n && m.callable && !m.absent)

abbrev Result := Except String String

def compile (place : String) (m : Member) : Result :=
  let label := s!"{place}::{m.name}"
  match m.compileError with
  | none => .ok label
  | some e => .error s!"{label} failed to compile:\nRuntimeError: {e}\n"

def compileFile (repository file : Path) : Run (List Result) := do
  let members ← Run.loadModule file
  let found ← pipelines file members
  let place := ((file.relativeTo? repository).getD file).text
  if found.isEmpty then Run.print s!"⚠️  {place} exports no @dsl.pipeline functions."
  pure (found.map (compile place))

def command (words : List String) : Run Int := do
  let args ← CommandLine.read
    [{ Argument.positional "paths" with required := false, arity := .anyNumber, label := "PATH" }]
    words
  let targets ← Asset.targets (args.wordsOf "paths")
  let repository := (← read).repository
  let files := (gather (← get).tree repository targets).found
  if files.isEmpty then
    Run.print "No example_pipelines.py modules found. Nothing to validate."
    pure 0
  else
    let results := (← files.mapM (compileFile repository)).flatten
    results.forM fun r =>
      match r with
      | .ok label => Run.print s!"✅ Compiled {label}"
      | .error _ => pure ()
    let failures := results.filterMap fun r =>
      match r with
      | .ok _ => none
      | .error e => some e
    if failures.isEmpty then
      Run.print "All discovered example pipelines compiled successfully."
      pure 0
    else
      Run.print "❌ Example pipeline compilation failures detected:"
      Run.printAll failures
      pure 1

end AssetCatalog.Example
