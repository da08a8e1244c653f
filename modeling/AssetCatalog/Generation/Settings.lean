import AssetCatalog.Value.Order

/-! The settings of a generation, by name. -/

namespace AssetCatalog.Generation

structure Settings where
  inputArtifact : Option String := none
  inputPath : String := ""
  flowId : String := ""
  flowPath : String := ""
  model : String := ""
  concurrency : Value := .int 10
  checkpointFolder : String := ""
  saveFrequency : Value := .int 100
  logLevel : String := "INFO"
  temperature : Value := .float (.neg (.ofInt 1))
  tokens : Value := .int (-1)
  exporting : Value := .bool false
  exportPath : String := ""
  overrides : Value := .null
deriving Inhabited

namespace Settings

def textOf : Value → String
  | .null => ""
  | v => v.plain

def set (s : Settings) (name : String) (v : Value) : Except Fault Settings :=
  match name with
  | "input_artifact" =>
    pure { s with inputArtifact := match v with
      | .null => none
      | v => some (textOf v) }
  | "input_pvc_path" => pure { s with inputPath := textOf v }
  | "flow_id" => pure { s with flowId := textOf v }
  | "flow_yaml_path" => pure { s with flowPath := textOf v }
  | "model" => pure { s with model := textOf v }
  | "max_concurrency" => pure { s with concurrency := v }
  | "checkpoint_pvc_path" => pure { s with checkpointFolder := textOf v }
  | "save_freq" => pure { s with saveFrequency := v }
  | "log_level" => pure { s with logLevel := textOf v }
  | "temperature" => pure { s with temperature := v }
  | "max_tokens" => pure { s with tokens := v }
  | "export_to_pvc" => pure { s with exporting := v }
  | "export_path" => pure { s with exportPath := textOf v }
  | "runtime_params" => pure { s with overrides := v }
  | _ => throw (.wrongKind s!"unexpected setting '{name}'")

def ofNamed (named : List (String × Value)) : Except Fault Settings :=
  named.foldlM (fun s (n, v) => s.set n v) {}

end Settings

end AssetCatalog.Generation
