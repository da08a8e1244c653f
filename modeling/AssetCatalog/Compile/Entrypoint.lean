import AssetCatalog.Arguments
import AssetCatalog.Asset.Decorator
import AssetCatalog.Asset.Discovery

/-! Validation of packages: their submodules can be imported, and their assets compiled. -/

namespace AssetCatalog.Compile

def errorPath (home file : Path) : Path :=
  if file.isAbsolute then (file.relativeTo? home).getD file else file

def importSubmodules (package : String) : List String → Run Bool
  | [] => pure true
  | s :: ss => do
    let name := s!"{package}.{s}"
    let ok ← match ← Run.attempt (Run.importModule name) with
      | .ok _ => do
        Run.print s!"  ✅ {name}"
        pure true
      | .error e => do
        Run.print s!"  ❌ {name}: {e.message}"
        pure false
    let rest ← importSubmodules package ss
    pure (ok && rest)

def importPackages : List String → Run Bool
  | [] => pure true
  | p :: ps => do
    let found ← Asset.submodules (Path.ofText p)
    let ok ←
      if found.isEmpty then do
        Run.print s!"  Warning: No submodules found in {p}/"
        pure true
      else importSubmodules p found
    let rest ← importPackages ps
    pure (ok && rest)

def requested (repository : Path) (roots : List Path) (folder : Path) : Bool :=
  roots.any fun r => (folder.resolve repository).isWithin (r.resolve repository)

def entrypointsOf (kind fileName : String) (roots : List Path) : Run (List Path) := do
  let repository := (← read).repository
  let folders := (← Asset.withMetadata kind repository).map Path.ofText
  let files := (folders.filter (requested repository roots)).map fun f => f.below fileName
  files.filterM Run.exists?

def entrypoints (directories : List String) : Run (List Path) := do
  let roots := (if directories.isEmpty then ["components", "pipelines"] else directories).map
    Path.ofText
  let components ← entrypointsOf "components" "component.py" roots
  let pipelines ← entrypointsOf "pipelines" "pipeline.py" roots
  pure (components ++ pipelines)

def importName (file : Path) : String :=
  Text.join "." ((file.withoutSuffix?.getD file).parts)

def compileFunction (module function : String) : Run Unit := do
  let members ← Run.importModule module
  match members.find? fun m => m.name = function with
  | none => throw (.noMember s!"module '{module}' has no attribute '{function}'")
  | some m => m.compileError.forM fun e => throw (.failed e)

def compileErrors (module : String) : List String → Run (List String)
  | [] => pure []
  | f :: fs => do
    let error ← match ← Run.attempt (compileFunction module f) with
      | .ok _ => pure []
      | .error e => pure [s!"{module}.{f}: {e.message}"]
    let rest ← compileErrors module fs
    pure (error ++ rest)

inductive FileOutcome where
  | nothing
  | compiled
  | failed (errors : List String)
deriving DecidableEq, Repr, Inhabited

def compileFile (file : Path) : Run FileOutcome := do
  match ← Asset.decoratedNamesOf file with
  | none => pure .nothing
  | some names =>
    match names.components ++ names.pipelines with
    | [] => pure .nothing
    | functions =>
      match ← compileErrors (importName file) functions with
      | [] => pure .compiled
      | errors => pure (.failed errors)

def failureText (home file : Path) (errors : List String) : String :=
  Text.join "\n" ([s!"{(errorPath home file).text}:", ""] ++ errors.map fun e => s!"  - {e}")

def verdict (home : Path) (results : List (Path × FileOutcome)) : Option String :=
  let failures := results.filterMap fun (file, o) =>
    match o with
    | .failed errors => some (failureText home file errors)
    | _ => none
  if !failures.isEmpty then
    some ("Compilation failed for the following files:\n\n" ++ Text.join "\n" failures)
  else if results.any fun r => r.2 = .compiled then none
  else some "No components or pipelines found to compile"

def validateCompilation (directories : List String) : Run (Option String) := do
  Run.print "\nValidating component/pipeline compilation..."
  let site ← read
  if !site.compilerPresent then pure (some "kfp is not installed")
  else
    let files ← entrypoints directories
    let results ← files.mapM fun f => (f, ·) <$> compileFile f
    pure (verdict site.home results)

def packagesCommand (words : List String) : Run Int := do
  let args ← CommandLine.read [{ Argument.needed "--directories" with arity := .oneOrMore }] words
  let directories := args.wordsOf "--directories"
  Run.print "Validating package imports..."
  let imported ← importPackages directories
  let problem ← validateCompilation directories
  problem.forM fun e => Run.print s!"  Error: {e}"
  Run.print ""
  if imported && problem.isNone then
    Run.print "✅ All validations passed"
    pure 0
  else
    Run.print "❌ Some validations failed"
    pure 1

end AssetCatalog.Compile
