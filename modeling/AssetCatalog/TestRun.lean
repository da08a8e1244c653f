import AssetCatalog.Arguments
import AssetCatalog.Asset.Discovery
import AssetCatalog.Asset.Gathering

/-! Runs of the tests of assets. -/

namespace AssetCatalog.TestRun

def folderName : String := "tests"

def gatherFolder (t : Tree) (repository : Path) (g : Gathering) (p : Path) : Gathering :=
  if t.isFolder p.names then (g.noteOutside repository p).add repository p else g

def gatherTarget (t : Tree) (repository : Path) (g : Gathering) (target : Path) : Gathering :=
  let root := Gathering.searchRoot t target
  if !t.exists? root.names then g
  else
    let direct := root.below folderName
    if t.isFolder direct.names && Gathering.isMember repository direct then g.add repository direct
    else
      let g := if t.isFolder direct.names then g.noteOutside repository direct else g
      (Path.sort (Gathering.named t root folderName)).foldl (gatherFolder t repository) g

def gather (t : Tree) (repository : Path) (targets : List Path) : Gathering :=
  targets.foldl (gatherTarget t repository) {}

def arguments (folders : List Path) (timeout : Int) (verbose : Bool) : List String :=
  [s!"--timeout={timeout}", "--timeout-method=signal"] ++ (if verbose then ["-vv"] else []) ++
    folders.map Path.text

def run (words : List String) : Run Int := do
  modify fun w => { w with testRuns := w.testRuns ++ [words] }
  pure (← read).testStatus

def command (words : List String) : Run Int := do
  let args ← CommandLine.read
    [ { Argument.positional "paths" with required := false, arity := .anyNumber, label := "PATH" },
      { Argument.option "--timeout" with complaint := Argument.wholeNumber }, .switch "--verbose" ]
    words
  let targets ← Asset.targets (args.wordsOf "paths")
  let repository := (← read).repository
  let folders := (gather (← get).tree repository targets).found
  if folders.isEmpty then
    Run.print "No tests/ directories found under the supplied paths. Nothing to do."
    pure 0
  else
    let shown := folders.map fun p => ((p.relativeTo? repository).getD p).text
    Run.print ("Running pytest for: " ++ Text.join ", " shown)
    let status ← run (arguments folders (args.intOf "--timeout" 120) (args.has "--verbose"))
    Run.print (if status = 0 then "✅ Pytest completed successfully."
      else "❌ Pytest reported failures. See log above for details.")
    pure status

end AssetCatalog.TestRun
