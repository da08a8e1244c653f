import AssetCatalog.Number.Decimal
import AssetCatalog.Run

/-! The declaration of the generation as a component and as a step of a pipeline. -/

namespace AssetCatalog.Generation

def functionValue (name : String) : Value := .map [(.text "$func", .text name)]

def texts (ss : List String) : Value := .list (ss.map .text)

structure Declaration where
  packages : List String
  function : String
  file : String
deriving DecidableEq, Repr, Inhabited

def Declaration.declare (d : Declaration) : Run Unit :=
  Run.record { name := "component", named := [("packages_to_install", texts d.packages)] }

def Declaration.packagePath (d : Declaration) (installation : Path) : String :=
  Text.replace ".py" "_component.yaml" (installation.below d.file).text

def Declaration.compile (d : Declaration) : Run Unit := do
  d.declare
  let package := d.packagePath (← read).installation
  Run.record { name := "compile", positional := [functionValue d.function],
               named := [("package_path", .text package)] }

def generator : Declaration :=
  { packages := ["sdg-hub>=0.7.0,<1.0"], function := "sdg"
    file := "components/data_processing/sdg/component.py" }

def sentencePreparer : Declaration :=
  { packages := ["datasets"], function := "prepare_yoda_dataset"
    file := "components/data_processing/yoda_data_processor/component.py" }

structure PipelineSettings where
  model : Value := .text "openai/gpt-4o-mini"
  concurrency : Value := .int 1
  temperature : Value := .float (.ofDecimal false 7 (-1))
  tokens : Value := .int 256
deriving Inhabited

def PipelineSettings.ofNamed (named : List (String × Value)) : Except Fault PipelineSettings :=
  named.foldlM (fun s (n, v) =>
    match n with
    | "model" => pure { s with model := v }
    | "max_concurrency" => pure { s with concurrency := v }
    | "temperature" => pure { s with temperature := v }
    | "max_tokens" => pure { s with tokens := v }
    | _ => throw (.wrongKind s!"unexpected setting '{n}'")) ({} : PipelineSettings)

def declarePipeline : Run Unit := do
  Run.record { name := "component", named := [("packages_to_install", texts ["pandas"])] }
  Run.record
    { name := "pipeline"
      named := [("description", .text "Run SDG Hub LLM flow with sample data on OpenShift AI"),
        ("name", .text "sdg-llm-test-pipeline")] }

def mount (task : Value) (name path : String) : Run Unit :=
  Run.record { name := "use_config_map_as_volume",
               named := [("config_map_name", .text name), ("mount_path", .text path), ("task", task)] }

/-- Builds the pipeline: sample data, which come as `data`, the generation, which is the task
`task`, and what it needs to be mounted. -/
def buildPipeline (data task : Value) (s : PipelineSettings) : Run Unit := do
  Run.record { name := "create_sample_data" }
  Run.record
    { name := "sdg"
      named := [("flow_yaml_path", .text "/etc/sdg/llm_test_flow.yaml"),
        ("input_artifact", data), ("max_concurrency", s.concurrency),
        ("max_tokens", s.tokens), ("model", s.model), ("temperature", s.temperature)] }
  mount task "sdg-llm-test-flow" "/etc/sdg"
  mount task "sdg-llm-test-prompt" "/etc/sdg/prompts"
  Run.record
    { name := "use_secret_as_env"
      named := [("secret_key_to_env", .map [(.text "api_key", .text "LLM_API_KEY")]),
        ("secret_name", .text "llm-credentials"), ("task", task)] }

def sample (document domain : String) : Value :=
  .map [(.text "document", .text document), (.text "domain", .text domain)]

def samples : List Value :=
  [ sample "Python is a programming language." "technology",
    sample "Machine learning is a subset of AI." "technology",
    sample "The Earth orbits the Sun." "science" ]

def createSamples (path : String) : Run Unit := do
  Run.record { name := "DataFrame", positional := [.list samples] }
  Run.record { name := "to_json", positional := [.text path],
               named := [("lines", .bool true), ("orient", .text "records")] }

def compilePipeline : Run Unit := do
  let package := "sdg_llm_pipeline.yaml"
  Run.record { name := "compile", positional := [functionValue "sdg_llm_pipeline"],
               named := [("package_path", .text package)] }
  Run.print s!"Compiled: {package}"

end AssetCatalog.Generation
