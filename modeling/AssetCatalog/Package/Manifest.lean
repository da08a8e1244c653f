import AssetCatalog.Arguments
import AssetCatalog.Package.Discovery
import AssetCatalog.Toml.Document
import AssetCatalog.Value.Order

/-! The manifest of the catalogue, and the list of packages that it declares. -/

namespace AssetCatalog.Package

def manifestName : String := "pyproject.toml"

def notParsed : Fault := .failed "Failed to parse pyproject.toml"

def declaredIn (manifest : Value) : Except Fault (List Value) := do
  let tool ← manifest.get "tool"
  let section_ ← (tool.getD (.map [])).get "setuptools"
  let packages ← (section_.getD (.map [])).get "packages"
  match packages.getD (.list []) with
  | .list xs => pure xs
  | _ => throw (.failed "tool.setuptools.packages must be a list")

def readManifest (p : Path) : Run Value := do
  let text ← Run.ofExcept (← Run.content p).exactText
  match Toml.parse text with
  | .ok v => pure v
  | .error .toml => throw notParsed
  | .error e => throw e

def readDeclared (p : Path) : Run (List Value) := do
  Run.ofExcept (declaredIn (← readManifest p))

def declared (root : Path) : Run (List String) := do
  let p := root.below manifestName
  match ← Run.attempt (readDeclared p) with
  | .error (.noFile _) => throw (.failed s!"pyproject.toml not found at {p.text}")
  | .error e => throw e
  | .ok xs =>
    match xs.mapM fun x => match x with
      | .text s => some s
      | _ => none with
    | some names => pure (Text.distinct names)
    | none => throw (.failed "All entries in tool.setuptools.packages must be strings")

def complaint (kind : String) (names : List String) : List String :=
  if names.isEmpty then []
  else
    let lines := (Text.sort names).map fun n => "  - " ++ n
    [s!"{kind} packages in pyproject.toml (found {names.length}):\n" ++ Text.join "\n" lines]

def manifestComplaints (found declared : List String) : List String :=
  complaint "Missing" (found.filter fun n => !declared.contains n) ++
    complaint "Extra" (declared.filter fun n => !found.contains n)

def checkManifest (root : Path) : Run (List String) := do
  let l ← Run.locate root
  let found := expected (← get).tree l
  pure (manifestComplaints found (← declared root))

def failureLine (p : Path) : Fault → String
  | .noMember _ => "❌ Error"
  | .isDirectory => s!"❌ Error: [Errno 21] Is a directory: {Text.quoted p.text}"
  | .notDirectory => s!"❌ Error: [Errno 20] Not a directory: {Text.quoted p.text}"
  | e => e.titled "❌ Error"

def checkManifestCommand (words : List String) : Run Int := do
  let _ ← CommandLine.read [] words
  let root := (← read).repository
  match ← Run.attempt (checkManifest root) with
  | .ok [] =>
    Run.print "✅ All package entries in pyproject.toml are up to date."
    pure 0
  | .ok complaints =>
    Run.print "❌ Package entries in pyproject.toml are out of sync:\n"
    Run.printAll complaints
    Run.print ("\nTo fix, update the 'packages' list in pyproject.toml under " ++
      "[tool.setuptools] to match the discovered packages.")
    pure 1
  | .error e =>
    Run.printError (failureLine (root.below manifestName) e)
    pure 1

end AssetCatalog.Package
