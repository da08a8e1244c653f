import AssetCatalog.Arguments

/-! Loading of modules, each after the packages it lies in, and once; a package that cannot be loaded
keeps what it had loaded before. -/

namespace AssetCatalog.Package

def distributionName : String := "kfp_components"

def categories : List String := ["data_processing", "deployment", "evaluation", "training"]

inductive Import where
  | inside (names : List String)
  | insideOrOutside (names : List String)
  | module (name : String)
deriving DecidableEq, Repr, Inhabited

inductive Exported where
  | module
  | function
deriving DecidableEq, Repr, Inhabited

structure Source where
  imports : List Import := []
  exports : List (String × Exported) := []
  doc : Option String := none
deriving DecidableEq, Repr, Inhabited

def lines (ls : List String) : Option String := some (String.join (ls.map (· ++ "\n")))

def rootSource : Source :=
  { imports := [.insideOrOutside ["components", "pipelines"]]
    exports := [("components", .module), ("pipelines", .module)]
    doc := lines
      [ "Kubeflow Pipelines Components", "",
        "A collection of reusable components and pipelines for Kubeflow Pipelines.", "",
        "Usage:",
        "    from kfp_components import components, pipelines",
        "    from kfp_components.components import training",
        "    from kfp_components.pipelines import evaluation" ] }

def kindDoc : String → Option String
  | "components" => lines
      [ "Kubeflow Pipelines Components - Core Components Package", "",
        "This module auto-imports all components for clean usage:",
        "    from kfp_components.components import training",
        "    from kfp_components.components import evaluation",
        "    from kfp_components.components import data_processing",
        "    from kfp_components.components import deployment" ]
  | _ => lines
      [ "Kubeflow Pipelines Components - Core Pipelines Package", "",
        "This module auto-imports all pipelines for clean usage:",
        "    from kfp_components import pipelines",
        "    from kfp_components.pipelines import training",
        "    from kfp_components.pipelines import evaluation",
        "    from kfp_components.pipelines import data_processing",
        "    from kfp_components.pipelines import deployment" ]

def kindSource (kind : String) : Source :=
  { imports := [.inside categories], exports := categories.map fun c => (c, .module)
    doc := kindDoc kind }

def categoryDoc (kind title category singular : String) : Option String :=
  let label := if kind = "components" then "Components" else "Pipelines"
  lines
    [ s!"{title} {label} Module", "",
      s!"This module re-exports all {kind} in the {category} category for easy import:",
      s!"    from kfp_components.{kind}.{category} import {singular}_name" ]

def categoryTitle : String → Option String
  | "data_processing" => some "Data Processing"
  | "deployment" => some "Deployment"
  | "evaluation" => some "Evaluation"
  | "training" => some "Training"
  | _ => none

def singularOf (kind : String) : Option String :=
  if kind = "components" then some "component"
  else if kind = "pipelines" then some "pipeline"
  else none

def compilerModules : List String := ["kfp", "kfp.compiler", "kfp.kubernetes"]

def assetSource : List String → Option Source
  | ["components", "data_processing", "sdg"] => some {}
  | ["components", "data_processing", "sdg", "component"] =>
    some
      { imports := [.module "kfp.compiler"]
        doc := lines
          [ "SDG Hub KFP Component.", "",
            "Wraps the SDG Hub SDK to enable synthetic data generation",
            "within Kubeflow Pipelines." ] }
  | ["components", "data_processing", "sdg", "shared"] => some {}
  | ["components", "data_processing", "sdg", "tests"] => some {}
  | ["components", "data_processing", "yoda_data_processor"] =>
    some { imports := [.inside ["component"]], exports := [("prepare_yoda_dataset", .function)] }
  | ["components", "data_processing", "yoda_data_processor", "component"] =>
    some { imports := [.module "kfp.compiler"] }
  | ["components", "data_processing", "yoda_data_processor", "tests"] => some {}
  | ["pipelines", "data_processing", "sdg"] => some {}
  | ["pipelines", "data_processing", "sdg", "pipeline"] =>
    some
      { imports := [.module "kfp.compiler", .module "kfp.kubernetes",
          .module "kfp_components.components.data_processing.sdg.component"]
        doc := lines
          [ "SDG LLM pipeline for OpenShift AI.", "",
            "Creates sample input data, runs an LLM flow via the SDG Hub component,",
            "and produces generated output as a KFP artifact." ] }
  | ["pipelines", "data_processing", "sdg", "tests"] => some {}
  | _ => none

def sourceAt : List String → Option Source
  | [] => some rootSource
  | [kind] => (singularOf kind).map fun _ => kindSource kind
  | [kind, category] => do
    let singular ← singularOf kind
    let title ← categoryTitle category
    pure { doc := categoryDoc kind title category singular }
  | place => assetSource place

def sourceOf (name : String) : Option Source :=
  if compilerModules.contains name then some {}
  else match Text.split "." name with
    | first :: place =>
      if first = distributionName then sourceAt place else sourceAt (first :: place)
    | [] => none

def parentOf (name : String) : Option String := (Text.cutLast? '.' name).map (·.1)

structure Loading where
  loaded : List String := []
  bindings : List ((String × String) × String) := []
deriving Inhabited

namespace Loading

def bind (l : Loading) (module name target : String) : Loading :=
  { l with bindings := ((module, name), target) :: l.bindings }

def forget (l : Loading) (module : String) : Loading :=
  { l with loaded := l.loaded.filter (· ≠ module) }

end Loading

/-- A step of loading; a failure keeps what was loaded before it. -/
abbrev Load := ExceptT Fault (StateM Loading)

def runImport (load : String → Load Unit) (module : String) : Import → Load Unit
  | .inside names => bindInside names
  | .insideOrOutside names => tryCatch (bindInside names) fun _ => bindOutside names
  | .module name => load name
where
  bindInside (names : List String) : Load Unit := do
    names.forM fun n => load s!"{module}.{n}"
    names.forM fun n => modify fun l => l.bind module n s!"{module}.{n}"
  bindOutside (names : List String) : Load Unit :=
    names.forM fun n => do
      load n
      modify fun l => l.bind module n n

/-- Loads a module: at once if it is loaded already, else after the package that it lies in. The
first argument bounds the depth. -/
def load (missing : List (String × String)) : Nat → String → Load Unit
  | 0, name => throw (.load s!"No module named '{name}'")
  | fuel + 1, name => do
    if (← get).loaded.contains name then pure ()
    else
      (parentOf name).forM (load missing fuel)
      if (← get).loaded.contains name then pure ()
      else
        match missing.lookup name, sourceOf name with
        | some reason, _ => throw (.load reason)
        | none, none => throw (.load s!"No module named '{name}'")
        | none, some source => do
          modify fun l => { l with loaded := name :: l.loaded }
          tryCatch (source.imports.forM (runImport (load missing fuel) name)) fun e => do
            modify fun l => l.forget name
            throw e

def depth : Nat := 100

structure Export where
  name : String
  kind : Exported
  target : String
deriving DecidableEq, Repr, Inhabited

def exportsOf (missing : List (String × String)) (name : String) :
    Except Fault (List Export × Option String) := do
  let (result, l) := (load missing depth name).run {}
  result
  let source := (sourceOf name).getD {}
  let exports := source.exports.map fun (n, kind) =>
    match kind with
    | .module => { name := n, kind, target := (l.bindings.lookup (name, n)).getD n }
    | .function => { name := n, kind, target := n }
  pure (exports, source.doc)

def reportLoads (missing : List (String × String)) (l : Loading) :
    List String → List (String × Except Fault Unit)
  | [] => []
  | m :: ms =>
    let (result, l) := (load missing depth m).run l
    (m, result) :: reportLoads missing l ms

def triedCategories : List String := ["training", "evaluation", "data_processing", "deployment"]

def categoryModules : List String :=
  triedCategories.flatMap fun c =>
    [s!"{distributionName}.components.{c}", s!"{distributionName}.pipelines.{c}"]

def tryAll : Run Bool := do
  let site ← read
  Run.print "Testing package imports..."
  Run.print s!"Python path: {site.searchPath}"
  let (result, l) := (load site.missing depth distributionName).run {}
  match result with
  | .error e =>
    Run.print s!"✗ Failed to import main modules: {e.message}"
    pure false
  | .ok _ =>
    Run.print "✓ Main modules imported successfully"
    let results := reportLoads site.missing l categoryModules
    results.forM fun (m, r) =>
      match r with
      | .ok _ => Run.print s!"✓ {m} imported successfully"
      | .error e => Run.print s!"✗ Failed to import {m}: {e.message}"
    let ok := results.all fun r => r.2.isOk
    Run.print (if ok then "\nAll package imports successful!" else "\nSome package imports failed")
    pure ok

def tryCommand (words : List String) : Run Int := do
  let _ ← CommandLine.read [] words
  let ok ← tryAll
  pure (if ok then 0 else 1)

end AssetCatalog.Package
