import AssetCatalog.Readme.Feature
import AssetCatalog.Readme.Interface

/-! The page of an asset: an overview, its inputs and outputs, examples, metadata and links. -/

namespace AssetCatalog.Readme

structure Row where
  name : String
  type : Value := .text "Any"
  default : Option Value := none
  description : Value := .text ""
deriving Inhabited

structure Description where
  overview : String := ""
  rows : List Row := []
  output : Option Output := none
deriving Inhabited

def putRow (r : Row) : List Row → List Row
  | [] => [r]
  | q :: qs => if q.name = r.name then r :: qs else q :: putRow r qs

def Interface.description (i : Interface) : Description :=
  { overview := i.summary.overview
    rows := i.inputs.map fun p =>
      { name := p.name, type := .text p.type, default := some p.default, description := p.description }
    output := i.output }

def Row.defaultCell (r : Row) : Except Fault String := do
  match r.default with
  | none => pure "Required"
  | some (.text "") => pure "`\"\"`"
  | some v =>
    let text ← v.plainText
    pure ("`" ++ text ++ "`")

def Row.line (r : Row) : Except Fault String := do
  let type ← r.type.plainText
  let default ← r.defaultCell
  let description ← r.description.plainText
  pure ("| `" ++ r.name ++ "` | `" ++ type ++ "` | " ++ default ++ " | " ++ description ++ " |")

structure Page where
  title : String
  overview : String
  rows : List Row
  output : Option Output
  example_ : String
  features : List (String × String)
  links : Value
  stability : String
deriving Inhabited

def loadExample (source : Path) : Run String := do
  let file := source.below "example_pipelines.py"
  if ← Run.exists? file then
    match ← Run.attempt (Run.readText file) with
    | .ok s => pure s
    | .error _ =>
      Run.log .warning s!"Error reading Example Pipelines file ({file.text})"
      pure ""
  else pure ""

def takeLinks : Value → Except Fault (Value × Value)
  | .map es =>
    pure ((Value.named "links" es).getD (.map []), .map (Value.erase (.text "links") es))
  | _ => throw .noMember

def preparePage (d : Description) (source : Path) (features : Value) : Run Page := do
  let name ← Run.ofExcept (features.getOrNull "name")
  let title ← Run.ofExcept (titleOf name)
  let overview :=
    if d.overview = "" then
      "A Kubeflow Pipelines component for " ++ Text.replace "_" " " name.plain ++ "."
    else d.overview
  let overview ← Run.ofExcept (wrapText lineWidth overview)
  let example_ ← loadExample source
  let (links, features) ← Run.ofExcept (takeLinks features)
  let stability ← match features with
    | .map es =>
      Text.trim <$> Run.ofExcept ((Value.named "stability" es).getD (.text "")).plainText
    | _ => pure ""
  let features ← Run.ofExcept (formatFeatures features)
  pure { title, overview, rows := d.rows, output := d.output, example_, features, links, stability }

def linkLine (e : Value × Value) : Except Fault String := do
  let name ← e.1.plainText
  let shown := headingCase (Text.replace "_" " " name)
  let target ← e.2.plainText
  pure s!"- **{shown}**: [{target}]({target})"

def linkLines (links : Value) : Except Fault (List String) :=
  if !links.truthy then pure []
  else match links with
    | .map es => do
      let lines ← es.mapM linkLine
      pure (["## Additional Resources 📚", ""] ++ lines ++ [""])
    | _ => throw .undefinedName

def stabilityLines (stability : String) : List String :=
  if stability = "" || Text.lower stability = "stable" then []
  else [s!"> ⚠️ **Stability: {stability}** — This asset is not yet stable and may change.", ""]

def inputLines (rows : List Row) : Except Fault (List String) :=
  if rows.isEmpty then pure []
  else do
    let lines ← rows.mapM Row.line
    pure
      ([ "## Inputs 📥", "", "| Parameter | Type | Default | Description |",
         "|-----------|------|---------|-------------|" ] ++ lines ++ [""])

def outputLines : Option Output → Except Fault (List String)
  | none => pure []
  | some o => do
    let type ← o.type.plainText
    let description ← o.description.plainText
    pure
      [ "## Outputs 📤", "", "| Name | Type | Description |", "|------|------|-------------|",
        "| Output | `" ++ type ++ "` | " ++ description ++ " |", "" ]

def exampleLines (code : String) : List String :=
  if code = "" then [] else ["## Usage Examples 🧪", "", "```python", code, "```", ""]

def featureLines (features : List (String × String)) : List String :=
  if features.isEmpty then []
  else ["## Metadata 🗂️", ""] ++ features.map (fun (k, v) => s!"- **{k}**: {v}") ++ [""]

def Page.pieces (p : Page) : Except Fault (List String) := do
  let inputs ← inputLines p.rows
  let outputs ← outputLines p.output
  let links ← linkLines p.links
  pure (["# " ++ p.title ++ " ✨", ""] ++ stabilityLines p.stability ++
    ["## Overview 🧾", "", p.overview, ""] ++ inputs ++ outputs ++
    exampleLines p.example_ ++ featureLines p.features ++ links)

def Page.render (p : Page) : Except Fault String := do
  let pieces ← p.pieces
  let raw := String.join (pieces.map (· ++ "\n"))
  pure (Text.join "\n" ((Text.lines raw).map Text.trimEnd))

def generatePage (d : Description) (source : Path) : Run String := do
  let features ← loadFeatures source
  let page ← preparePage d source features
  Run.ofExcept page.render

end AssetCatalog.Readme
