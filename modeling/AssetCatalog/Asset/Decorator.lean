import AssetCatalog.Run
import AssetCatalog.Source.Definition

/-! The decorators that make functions into assets, and the base images that they name. -/

namespace AssetCatalog.Asset

open Source

variable (p : Path)

def componentDecorators : List String := ["component", "container_component", "notebook_component"]

def pipelineDecorators : List String := ["pipeline"]

/-- The name of a decorator: that of a name or an attribute, called or not. -/
def decoratorName : Expr → Option String
  | .name n => some n
  | .attribute _ n => some n
  | .call (.name n) _ _ => some n
  | .call (.attribute _ n) _ _ => some n
  | _ => none

def parseFile : Run (List Stmt) := do
  let s ← Run.readText p
  Run.ofExcept (Stmt.parse s)

def checkLoads : Run Unit := do
  if p.suffix ≠ ".py" then throw (.load s!"Could not load module from {p.text}")
  match ← Run.attempt (parseFile p) with
  | .error (.notText _) => throw .source
  | .error e => throw e
  | .ok _ => pure ()

def functionsWith (decorator : String) (body : List Stmt) : List String :=
  ((Stmt.definitions body).filter fun d =>
    d.decorators.any fun e => decoratorName e = some decorator).map Definition.name

structure ImageLocation where
  function : String
  image : String
  span : Span
deriving DecidableEq, Repr, Inhabited

def isAssetDecorator (e : Expr) : Bool :=
  match decoratorName e with
  | some n => componentDecorators.contains n || pipelineDecorators.contains n
  | none => false

def keywordOf (name : String) : Expr → Option Expr
  | .call _ _ keywords => keywords.lookup (some name)
  | _ => none

def imageLocation (function : String) : Expr → Except Fault ImageLocation
  | .constant (.text s) _ span => pure ⟨function, s, span⟩
  | _ => throw (.invalid
      s!"base_image must be a string literal for function '{function}' in {p.text}")

/-- The base images that the decorators of assets name; each has to be a text literal. -/
def imageLocations (body : List Stmt) : Except Fault (List ImageLocation) := do
  let named := (Stmt.definitions body).flatMap fun d =>
    (d.decorators.filter isAssetDecorator).filterMap fun e =>
      (keywordOf "base_image" e).map fun v => (d.name, v)
  named.mapM fun (f, v) => imageLocation p f v

structure DecoratedNames where
  components : List String := []
  pipelines : List String := []
deriving DecidableEq, Repr, Inhabited

def decoratedKind (d : Definition) : Option Bool :=
  (d.decorators.filterMap decoratorName).findSome? fun n =>
    if componentDecorators.contains n then some true
    else if pipelineDecorators.contains n then some false
    else none

def decoratedNames (body : List Stmt) : DecoratedNames :=
  let found := (Stmt.definitions body).filterMap fun d => (decoratedKind d).map fun k => (d.name, k)
  { components := (found.filter (·.2)).map (·.1)
    pipelines := (found.filter (!·.2)).map (·.1) }

def decoratedNamesOf : Run (Option DecoratedNames) := do
  match ← Run.attempt (parseFile p) with
  | .ok body => pure (some (decoratedNames body))
  | .error .source | .error (.notText _) =>
    Run.print s!"  Warning: Could not parse {p.text}"
    pure none
  | .error e => throw e

end AssetCatalog.Asset
