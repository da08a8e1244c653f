import AssetCatalog.Asset.Decorator
import AssetCatalog.Docstring.Summary
import AssetCatalog.Source.Printer

/-! The interface of an asset: the function that a decorator marks, and its documentation. -/

namespace AssetCatalog.Readme

open Source

variable (descriptions : List (String × String))

def isDecoratorOf (type : String) : Expr → Bool
  | .name n => n = type
  | .attribute (.name "dsl") n => n = type
  | .attribute (.attribute (.name "kfp") "dsl") n => n = type
  | .call f _ _ => isDecoratorOf type f
  | _ => false

def decoratedFunction (type : String) (body : List Stmt) : Option String :=
  ((Stmt.definitions body).find? fun d => d.decorators.any (isDecoratorOf type)).map Definition.name

def findFunction (p : Path) (type : String) : Run (Option String) := do
  match ← Run.attempt (Asset.parseFile p) with
  | .ok body => pure (decoratedFunction type body)
  | .error _ =>
    Run.log .error s!"Error parsing file {p.text}"
    pure none

def definitionOf (function : String) (body : List Stmt) : Option Definition :=
  (Stmt.definitions body).find? fun d => d.name = function

def constantNamed (name : String) : List (Option String × Expr) → Option Value
  | [] => none
  | (some n, .constant v _ _) :: rest => if n = name then some v else constantNamed name rest
  | _ :: rest => constantNamed name rest

def decoratorTitle : Expr → Option Value
  | .call _ _ keywords => constantNamed "name" keywords
  | _ => none

def givenName (d : Definition) : Option Value :=
  d.decorators.findSome? fun e => (decoratorTitle e).filter Value.truthy

def givenNameIn (p : Path) (function : String) : Run (Option Value) := do
  match ← Run.attempt (Asset.parseFile p) with
  | .ok body => pure ((definitionOf function body).bind givenName)
  | .error _ =>
    Run.log .debug "Could not extract decorator name from AST"
    pure none

structure Input where
  name : String
  type : String
  default : Value
  description : Value
deriving Inhabited

structure Output where
  type : Value
  description : Value
deriving Inhabited

structure Interface where
  name : Value
  docstring : String
  summary : Docstring.Summary
  inputs : List Input
  output : Option Output
deriving Inhabited

def hintText : Option Expr → Except Fault String
  | none => pure "Any"
  | some e => e.print

def defaultValue : Option Expr → Except Fault Value
  | none => pure .null
  | some (.constant v _ _) => pure v
  | some e => do
    let s ← e.print
    pure (.text s)

def placedDefaults (ps : Parameters) : List Expr :=
  (ps.positional ++ ps.regular).filterMap Parameter.default

/-- The default of the regular parameter at an index. The defaults belong to the last of the parameters
that can be given by place; if some of them are for positional ones only, there may be more defaults than
regular parameters. -/
def regularDefault (ps : Parameters) (i : Nat) : Except Fault (Option Expr) :=
  let defaults := placedDefaults ps
  let first : Int := ps.regular.length - defaults.length
  if i < first then pure none
  else
    match defaults[(i - first).toNat]? with
    | some e => pure (some e)
    | none => throw .noIndex

def inputOf (p : Parameter) (default : Option Expr) :
    Except Fault Input := do
  let type ← hintText p.hint
  let default ← defaultValue default
  pure { name := p.name, type, default,
         description := .text ((descriptions.lookup p.name).getD "") }

def putInput (i : Input) : List Input → List Input
  | [] => [i]
  | j :: js => if j.name = i.name then i :: js else j :: putInput i js

/-- The inputs for the regular and then the keyword parameters; of those with one name the last counts,
in the place of the first. -/
def inputsOf (ps : Parameters) :
    Except Fault (List Input) := do
  let regular ← ps.regular.zipIdx.mapM fun (p, i) => do
    let default ← regularDefault ps i
    inputOf descriptions p default
  let keyword ← ps.keyword.mapM fun p => inputOf descriptions p p.default
  pure ((regular ++ keyword).foldl (fun acc i => putInput i acc) [])

def interfaceOf (place : String) (d : Definition) : Except Fault Interface := do
  let docstring := d.docstring.getD ""
  let summary ← Docstring.summary place docstring
  let inputs ← inputsOf summary.parameters d.parameters
  let output ← d.returns.mapM fun e => do
    let type ← e.print
    pure { type := .text type, description := (summary.result.map Value.text).getD .null : Output }
  pure { name := (givenName d).getD (.text d.name), docstring, summary, inputs, output }

def extractInterface (p : Path) (function : String) : Run (Option Interface) := do
  let work : Run (Option Interface) := do
    let body ← Asset.parseFile p
    match definitionOf function body with
    | none =>
      Run.log .error s!"Function {function} not found in {p.text}"
      pure none
    | some d => some <$> Run.ofExcept (interfaceOf p.name d)
  tryCatch work fun e => do
    Run.log .error s!"Error extracting metadata for function {function}"
    throw e

end AssetCatalog.Readme
