import AssetCatalog.Generation.Export
import AssetCatalog.Json
import AssetCatalog.Run

/-! Runs of the generation on the machine itself. Two functions of the runner are replaced, because
it refuses components with input artifacts even when none are given. -/

namespace AssetCatalog.Generation.LocalRun

structure Tool where
  result : Value := .null
  failure : Option String := none
deriving Inhabited

def Tool.call (t : Tool) (c : Call) : Run Value := do
  Run.record c
  match t.failure with
  | some m => throw (.invalid m)
  | none => pure t.result

abbrev Artifacts := List (String × String)

def artifactsValue (a : Artifacts) : Value := .map (a.map fun e => (.text e.1, .text e.2))

/-- Runs an operation on a specification from which the input artifacts are removed, and puts them
back, whether it fails or not. -/
def withoutArtifacts {α : Type} (saved : Artifacts) (f : Artifacts → Run α) :
    Run (Except Fault α × Artifacts) := do
  Run.record { name := "ClearField", positional := [.text "artifacts"] }
  let result ← Run.attempt (f [])
  pure (result, saved)

def constructInput (construct : Tool) (saved : Artifacts) (arguments taskRoot : Value) :
    Run (Except Fault Value × Artifacts) :=
  withoutArtifacts saved fun artifacts =>
    construct.call
      { name := "construct"
        named := [("arguments", arguments), ("block_input_artifact", .bool false),
          ("component_spec", artifactsValue artifacts), ("task_root", taskRoot)] }

def setNamed (name : String) (v : Value) (named : List (String × Value)) :
    List (String × Value) :=
  if named.any (·.1 = name) then named.map fun e => if e.1 = name then (name, v) else e
  else named ++ [(name, v)]

def runTask (run : Tool) (positional : List Value) (named : List (String × Value)) : Run Value :=
  let named := setNamed "block_input_artifact" (.bool false) named
  run.call { name := "run", positional, named := named.mergeSort fun a b => Text.le a.1 b.1 }

def replacements : List String := ["_patched_construct_executor_input", "_patched_run"]

def title (s : String) : Run Unit := do
  Run.print ("\n" ++ Text.times 60 "=")
  Run.print s
  Run.print (Text.times 60 "=")

def need (name : String) (outputs : List (String × String)) : Run String :=
  match outputs.lookup name with
  | some p => pure p
  | none => throw .noKey

def testData (installation : Path) (name : String) : String :=
  (installation.below ("components/data_processing/sdg/tests/test_data/" ++ name)).text

def printMetrics (path : String) : Run Unit := do
  let text ← Run.readText (Path.ofText path)
  let v ← Run.ofExcept (Json.parse text)
  Run.print (Json.indented 0 v)

structure Result where
  runner : Value
  root : String
  outputs : List (String × String)
  table : String := ""

def demonstrate (r : Result) : Run Unit := do
  let installation := (← read).installation
  Run.record { name := "SubprocessRunner", named := [("use_venv", .bool false)] }
  Run.record { name := "init", named := [("pipeline_root", .text r.root), ("runner", r.runner)] }
  let input := testData installation "sample_input.jsonl"
  let flow := testData installation "llm_test_flow.yaml"
  Run.print s!"Input:   {input}"
  Run.print s!"Flow:    {flow}"
  Run.print s!"Output:  {r.root}"
  Run.print ""
  Run.record
    { name := "sdg"
      named := [("flow_yaml_path", .text flow), ("input_pvc_path", .text input),
        ("max_concurrency", .int 1), ("max_tokens", .int 2048),
        ("model", .text "openai/gpt-4o-mini"), ("temperature", .float (.ofDecimal false 7 (-1)))] }
  let output ← need "output_artifact" r.outputs
  let metrics ← need "output_metrics" r.outputs
  title "GENERATED OUTPUT"
  Run.record { name := "read_json", positional := [.text output], named := [("lines", .bool true)] }
  Run.record { name := "set_option", positional := [.text "display.max_colwidth", .int 80] }
  Run.record { name := "set_option", positional := [.text "display.width", .int 200] }
  Run.record { name := "to_string", named := [("index", .bool false)] }
  Run.print r.table
  title "METRICS"
  printMetrics metrics

end AssetCatalog.Generation.LocalRun
