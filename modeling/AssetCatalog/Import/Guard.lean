import AssetCatalog.Arguments
import AssetCatalog.Import.Exceptions
import AssetCatalog.Import.Standard

/-! The guard on imports: a module that is loaded imports the standard library and nothing else. -/

namespace AssetCatalog.Import

def isHidden (p : Path) : Bool := p.parts.any fun part => Text.startsWith part "."

def sourceFilesAt (p : Path) : Run (List Path) := do
  if isHidden p then pure []
  else if (← Run.isFile p) && p.suffix = ".py" then pure [p]
  else if ← Run.isFolder p then
    pure ((← Run.search p fun n => Text.endsWith n ".py").filter fun q => !isHidden q)
  else pure []

def sourceFiles (raw : List String) : Run (List Path) := do
  let found ← raw.mapM fun s => sourceFilesAt (Path.ofText s)
  pure found.flatten

def violations (e : Exceptions) (home file : Path) (found : List TopImport) : List String :=
  let bad := found.filter fun i => !(isStandard i.package || e.allows home i.package file)
  bad.map fun i => s!"{file.text}:{i.line} imports non-stdlib module '{i.package}' at top level"

def violationsIn (e : Exceptions) (file : Path) : Run (List String) := do
  let text ← Run.readText file
  match Source.Stmt.parse text with
  | .error _ => pure [s!"{file.text}: failed to parse"]
  | .ok body => pure (violations e (← read).home file (ofBlock body))

def checkFiles (e : Exceptions) (files : List Path) : Run Int := do
  let found ← files.mapM fun p => do violationsIn e (← Run.resolve p)
  let all := found.flatten
  if all.isEmpty then pure 0
  else
    all.forM Run.printError
    Run.print "You may add exceptions in the configuration if any of these modules are required"
    pure 1

def inspect (config : Option String) (paths : List String) : Run Int := do
  let files ← sourceFiles paths
  if files.isEmpty then
    Run.printError "No Python files found to inspect."
    pure 0
  else
    let e ← match config with
      | some p => Exceptions.load (Path.ofText p)
      | none => pure (.standard (← read).home)
    checkFiles e files

def command (words : List String) : Run Int := do
  let args ← CommandLine.read
    [ .option "--config", { Argument.switch "--quiet" with flags := ["-q", "--quiet"] },
      { Argument.positional "paths" with arity := .oneOrMore } ]
    words
  inspect (args.last? "--config") (args.wordsOf "paths")

end AssetCatalog.Import
