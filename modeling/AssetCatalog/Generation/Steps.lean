import AssetCatalog.Generation.Export
import AssetCatalog.Generation.Flow
import AssetCatalog.Generation.Settings

/-! Generation of data: the input is read, a flow is chosen and run, and its output is written. -/

namespace AssetCatalog.Generation

variable (e : Engine) (s : Settings)

def info (message : String) : Run Unit := Run.log .info message

def rule : Run Unit := info (Text.times 60 "=")

def orMissing (s : String) : String := if s = "" then "Not provided" else s

def isNegative (v : Value) : Except Fault Bool := v.less (.int 0)

def isPositive (v : Value) : Except Fault Bool := Value.less (.int 0) v

def isNatural (v : Value) : Except Fault Bool := do
  let positive ← isPositive v
  pure (positive || v == .int 0)

def orDefault (v : Value) : Except Fault String := do
  let negative ← isNegative v
  pure (if negative then "flow default" else v.plain)

def columnsText (f : Frame) : String := (Value.list f.columns).exact

def logSettings : Run Unit := do
  rule
  info "SDG Hub KFP Component"
  rule
  let artifact := if s.inputArtifact.isSome then "Provided" else "Not provided"
  info s!"Input Artifact: {artifact}"
  info s!"Input PVC Path: {orMissing s.inputPath}"
  info s!"Flow ID: {orMissing s.flowId}"
  info s!"Flow YAML Path: {orMissing s.flowPath}"
  info s!"Model: {orMissing s.model}"
  info s!"Max Concurrency: {s.concurrency.plain}"
  let temperature ← Run.ofExcept (orDefault s.temperature)
  info s!"Temperature: {temperature}"
  let tokens ← Run.ofExcept (orDefault s.tokens)
  info s!"Max Tokens: {tokens}"
  info s!"Export to PVC: {s.exporting.plain}"
  if s.exporting.truthy then info s!"Export Path: {orMissing s.exportPath}"
  if s.overrides.truthy then info s!"Runtime params: {s.overrides.plain}"

inductive Refusal where
  | noInput
  | noArtifact (path : String)
  | noInputFile (path : String)
  | noFlow
  | noFlowFile (path : String)
  | unknownFlow (flowId reason : String)
  | noModel (flow : Value)
  | noExportPath
deriving Inhabited

def Refusal.fault : Refusal → Fault
  | .noInput => .invalid "No input provided. Supply 'input_artifact' or 'input_pvc_path'."
  | .noArtifact path => .noFile (some s!"Input artifact file not found: {path}")
  | .noInputFile path => .noFile (some s!"Input file not found: {path}")
  | .noFlow => .invalid ("Either 'flow_id' or 'flow_yaml_path' must be provided. " ++
      "Use 'flow_id' for built-in flows or 'flow_yaml_path' for custom YAML.")
  | .noFlowFile path => .noFile (some (s!"Custom flow YAML not found: {path}. " ++
      "Ensure the file is mounted (e.g., via ConfigMap or PVC)."))
  | .unknownFlow flowId reason => .invalid s!"Flow lookup failed for '{flowId}': {reason}"
  | .noModel flow =>
    .invalid (s!"Flow '{flow.plain}' contains LLM blocks and requires a 'model' parameter. " ++
      "Provide a LiteLLM model identifier (e.g., 'openai/gpt-4o-mini').")
  | .noExportPath => .invalid ("export_to_pvc is True but export_path is not provided. " ++
      "Supply export_path (base PVC directory for exports).")

def refuse {α : Type} (r : Refusal) : Run α := throw r.fault

def loadFrom (kind setting path : String) (missing : Refusal) : Run Frame := do
  info s!"Loading input from {kind}: {path}"
  if !(← Run.leads path) then refuse missing
  let frame ← e.read path
  info s!"Using {setting} as data source"
  pure frame

def loadInput : Run Frame := do
  let frame ← match s.inputArtifact with
    | some path => loadFrom e "KFP artifact" "input_artifact" path (.noArtifact path)
    | none =>
      if s.inputPath = "" then refuse .noInput
      else loadFrom e "PVC" "input_pvc_path" s.inputPath (.noInputFile s.inputPath)
  info s!"Loaded {frame.rows} rows with columns: {columnsText frame}"
  pure frame

def chooseFlow : Run String := do
  if s.flowId = "" && s.flowPath = "" then refuse .noFlow
  if s.flowId ≠ "" && s.flowPath ≠ "" then
    Run.log .warning ("Both 'flow_id' and 'flow_yaml_path' provided. " ++
      "Using 'flow_yaml_path' (takes precedence).")
  if s.flowPath ≠ "" then
    info s!"Using custom flow YAML: {s.flowPath}"
    if !(← Run.leads s.flowPath) then refuse (.noFlowFile s.flowPath)
    pure s.flowPath
  else
    info s!"Looking up built-in flow: {s.flowId}"
    match e.flow.lookupError with
    | some m => refuse (.unknownFlow s.flowId m)
    | none =>
      info s!"Found flow at: {e.flow.path}"
      pure e.flow.path

def loadFlow (path : String) : Run Flow := do
  info s!"Loading flow from: {path}"
  Run.record { name := "from_yaml", positional := [.text path] }
  match e.flow.loadError with
  | some m => throw (.flow s!"Failed to load flow from '{path}': {m}")
  | none =>
    let f := e.flow
    info s!"Flow loaded: '{f.name.plain}' v{f.version.plain} with {f.blocks} blocks"
    pure f

def textOrNull (s : String) : Value := if s = "" then .null else .text s

def configureModel (f : Flow) : Run Unit := do
  if !f.needsModel then info "Flow has no LLM blocks - skipping model configuration"
  else if s.model = "" then refuse (.noModel f.name)
  else
    let key := (← Run.setting? "LLM_API_KEY").getD ""
    let address := (← Run.setting? "LLM_API_BASE").getD ""
    let tokens := if ← Run.ofExcept (isPositive s.tokens) then [("max_tokens", s.tokens)] else []
    let temperature :=
      if ← Run.ofExcept (isNatural s.temperature) then [("temperature", s.temperature)] else []
    info s!"Configuring model: {s.model}"
    if address ≠ "" then info s!"Using API base: {address}"
    Run.record { name := "set_model_config",
                 named := [("api_base", textOrNull address), ("api_key", textOrNull key)] ++ tokens ++
                   [("model", .text s.model)] ++ temperature }
    Engine.deliver () f.modelError
    info "Model configuration applied to LLM blocks"

def checkData (f : Flow) : Run Unit := do
  if f.datasetErrors.isEmpty then info "Dataset validation passed"
  else throw (.flow (s!"Dataset validation failed for flow '{f.name.plain}':\n" ++
    Text.join "\n" (f.datasetErrors.map fun e => s!"  - {e.plain}")))

def execute (f : Flow) (input : Frame) : Run Frame := do
  info s!"Starting flow execution: {input.rows} samples, max_concurrency={s.concurrency.plain}"
  let (folder, frequency) ←
    if s.checkpointFolder = "" then pure ([], [])
    else do
      let every := s.saveFrequency.plain
      info s!"Checkpointing enabled: dir={s.checkpointFolder}, save_freq={every}"
      pure ([("checkpoint_dir", Value.text s.checkpointFolder)], [("save_freq", s.saveFrequency)])
  let overrides := if s.overrides.truthy then [("runtime_params", s.overrides)] else []
  Run.record { name := "generate",
               named := folder ++ [("max_concurrency", s.concurrency)] ++ overrides ++ frequency }
  Engine.deliver f.output f.runError

def writeOutput (output : Frame) (artifact : String) : Run Unit := do
  output.write artifact
  info s!"Output written to: {artifact}"
  info s!"Output: {output.rows} rows with columns: {columnsText output}"

def exportOutput (output : Frame) : Run Unit := do
  if s.exporting.truthy then
    if s.exportPath = "" then refuse .noExportPath
    let folder := exportFolder s.exportPath s.flowId s.flowPath (e.timeText "%Y%m%d_%H%M%S")
    Run.makeFolders (Path.ofText folder)
    let file := exportFile folder
    output.write file
    info s!"Output exported to PVC: {file}"

def logMetrics (input output : Frame) : Run Unit := do
  Run.measure "input_rows" (.int input.rows)
  Run.measure "output_rows" (.int output.rows)
  Run.measure "execution_time_seconds" (.float (e.elapsed.roundTo 2))
  info "Metrics logged"
  rule
  info s!"SDG Hub KFP Component completed in {e.elapsed.fixed 2}s"
  rule

def prepare : Run (Frame × Flow) := do
  logSettings s
  let input ← loadInput e s
  let path ← chooseFlow e s
  let flow ← loadFlow e path
  configureModel s flow
  checkData flow
  pure (input, flow)

def generate (artifact : String) (s : Settings) : Run Unit := do
  let (input, flow) ← prepare e s
  let output ← execute s flow input
  writeOutput output artifact
  exportOutput e s output
  logMetrics e input output

end AssetCatalog.Generation
