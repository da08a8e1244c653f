import AssetCatalog.Import.Statement
import AssetCatalog.Text.Glob
import AssetCatalog.Yaml.Document
import AssetCatalog.Value.Access
import AssetCatalog.Run

/-! Packages that may be imported all the same: everywhere, below a path, or where a pattern matches. -/

namespace AssetCatalog.Import

structure Exceptions where
  modules : List String := []
  paths : List (Path × List String) := []
  patterns : List (String × List String) := []
deriving DecidableEq, Repr, Inhabited

def isPattern (raw : String) : Bool := raw.toList.any fun c => c = '*' || c = '?'

def lastForEach {α : Type} [DecidableEq α] :
    List (α × List String) → List (α × List String)
  | [] => []
  | e :: es => if es.any (·.1 = e.1) then lastForEach es else e :: lastForEach es

namespace Exceptions

def packages (modules : List String) : List String := Text.distinct (modules.map topName)

/-- The packages for each key; of several entries for one key, the last counts. -/
def table {α : Type} [DecidableEq α] (key : String → α) (es : List (String × List String)) :
    List (α × List String) := lastForEach (es.map fun e => (key e.1, packages e.2))

def ofLists (home : Path) (modules : List String) (places : List (String × List String)) :
    Exceptions where
  modules := packages modules
  paths := table (fun raw => (Path.ofText raw).resolve home) (places.filter fun e => !isPattern e.1)
  patterns := table id (places.filter fun e => isPattern e.1)

def hasFor {α : Type} (table : List (α × List String)) (package : String) (test : α → Bool) : Bool :=
  table.any fun e => e.2.contains package && test e.1

def shownPath (home file : Path) : String := ((file.relativeTo? home).getD file).text

def beginnings (path : String) : List String :=
  let parts := Text.split "/" path
  (List.range parts.length).map fun i => Text.join "/" (parts.take (i + 1))

def allows (e : Exceptions) (home : Path) (module : String) (file : Path) : Bool :=
  let package := topName module
  let full := file.resolve home
  e.modules.contains package || hasFor e.paths package full.isWithin ||
    hasFor e.patterns package fun pattern =>
      (beginnings (shownPath home full)).any (Text.globMatches pattern)

end Exceptions

def nameOf : Value → Except Fault String
  | .text s => pure s
  | .bytes _ => throw .wrongKind
  | _ => throw .noMember

def namesOf (v : Value) : Except Fault (List String) := do
  let items ← v.visits
  items.mapM nameOf

def scopeOf (e : Value × Value) : Except Fault (String × List String) := do
  let names ← namesOf e.2
  let raw ← e.1.asText
  pure (raw, names)

def Exceptions.ofValue (home : Path) (v : Value) : Except Fault Exceptions := do
  let v := v.orElse (.map [])
  let modules ← v.get "modules"
  let files ← v.get "files"
  let names ← namesOf ((modules.getD (.list [])).orElse (.list []))
  match (files.getD (.map [])).orElse (.map []) with
  | .map es =>
    let places ← es.mapM scopeOf
    pure (.ofLists home names places)
  | _ => throw .noMember

def Exceptions.load (p : Path) : Run Exceptions := do
  if !(← Run.exists? p) then
    throw (.noFile (some s!"Configuration file not found: {p.text}"))
  let v ← Run.ofExcept (Yaml.load (← Run.readText p))
  Run.ofExcept (Exceptions.ofValue (← read).home v)

def Exceptions.standard (home : Path) : Exceptions :=
  .ofLists home ["pytest", "kfp"]
    [ ("components/**/tests/*", ["tests", "pandas"]), ("components/**/shared/*", ["pandas", "component"]),
      ("pipelines/**/tests/*", ["tests"]), ("pipelines/*.py", ["kfp_components"]),
      ("pipelines/**/*.py", ["kfp_components"]) ]

end AssetCatalog.Import
