import AssetCatalog.Metadata.Basic

/-! Compiled assets: the members of modules that are assets, and their specifications. -/

namespace AssetCatalog

namespace Member

def isComponent (m : Member) : Bool :=
  m.componentSpec || m.wrapped = some true

def isPipeline (m : Member) : Bool := m.pipelineSpec || m.pipelineFunction

end Member

namespace Asset

def membersOfType (type : String) (ms : List Member) : List Member :=
  let sorted := ms.mergeSort fun a b => Text.le a.name b.name
  sorted.filter fun m =>
    !Text.startsWith m.name "_" && !m.absent && m.callable &&
      ((type = "component" && m.isComponent) || (type = "pipeline" && m.isPipeline))

def isPlatformSpec (doc : Value) : Bool :=
  match doc with
  | .map es => ((Value.named "platforms" es).map Value.isMap).getD false
  | _ => false

def isPipelineSpec (doc : Value) : Bool :=
  match doc with
  | .map es => (Value.named "deploymentSpec" es).isSome || (Value.named "root" es).isSome
  | _ => false

/-- The specification in compiled documents: the only mapping, or one mapping for the pipeline and
one for the platforms. `place` names the file in messages. -/
def specification (place : String) (docs : List Value) : Except Fault Value :=
  match docs.filter Value.isMap with
  | [] => throw (.invalid (s!"Compiled YAML at {place} has no dict document. " ++
      "Expected at least one pipeline/component spec."))
  | [doc] => pure doc
  | docs =>
    match docs.find? fun d => isPipelineSpec d && !isPlatformSpec d, docs.find? isPlatformSpec with
    | some pipeline, some platform =>
      pure (.map [(.text "pipeline_spec", pipeline), (.text "platform_spec", platform)])
    | _, _ => throw (.invalid (s!"Compiled YAML at {place} has two documents but could not " ++
        "classify them: expected one doc with 'deploymentSpec' or 'root' (pipeline spec) and one " ++
        "with 'platforms' (platform spec). Refusing to guess."))

def specificationOf (place text : String) : Except Fault Value := do
  let docs ← Yaml.loadAll text
  specification place docs

end Asset

def Member.specification (m : Member) (place : String) : Except Fault Value :=
  match m.compileError with
  | some e => throw (.failed e)
  | none => Asset.specificationOf place m.compiled

end AssetCatalog
