import AssetCatalog.Value.Access

/-! The container images that a compiled specification names. -/

namespace AssetCatalog.Image

def entriesOf : Value → List (Value × Value)
  | .map es => es
  | _ => []

def inner (name : String) (v : Value) : Value :=
  .map (entriesOf ((Value.named name (entriesOf v)).getD .null))

def addIfTruthy (i : Value) (images : List Value) : Except Fault (List Value) :=
  if i.truthy then Value.joinSet i images else pure images

def addImage (v : Value) (images : List Value) : Except Fault (List Value) :=
  addIfTruthy ((Value.named "image" (entriesOf v)).getD .null) images

def addAll (name : String) (owners : List (Value × Value)) (images : List Value) :
    Except Fault (List Value) :=
  owners.foldlM (fun images o => addImage (inner name o.2) images) images

def ofExecutors (executors : Value) : Except Fault (List Value) :=
  addAll "container" (entriesOf executors) []

def getOr (name : String) (v : Value) : Except Fault Value := do
  let x ← v.getOrNull name
  pure (x.orElse (.map []))

def addLabelled (executors : List (Value × Value)) (images : List Value) (component : Value) :
    Except Fault (List Value) := do
  let label := (Value.named "executorLabel" (entriesOf component)).getD .null
  if !label.truthy then pure images
  else if !label.hashable then throw (.wrongKind s!"unhashable type: '{label.kindName}'")
  else
    let executor := (Value.lookup label executors).getD .null
    let container ← getOr "container" (executor.orElse (.map []))
    addImage container images

def addComponents (executors : Value) (components : List (Value × Value)) (images : List Value) :
    Except Fault (List Value) :=
  match executors with
  | .map executors => components.foldlM (fun images c => addLabelled executors images c.2) images
  | _ => pure images

/-- The images that the specification of a pipeline names: in its executors, in the tasks at its
root, and through the labels of its components. -/
def ofPipeline (spec : Value) : Except Fault (List Value) := do
  match spec with
  | .null => throw (.invalid "pipeline_spec cannot be None")
  | .map es =>
    let deployment := ((Value.named "deploymentSpec" es).getD .null).orElse (.map [])
    let executors ← getOr "executors" deployment
    let images ← ofExecutors executors
    let tasks := inner "tasks" (inner "dag" (inner "root" spec))
    let images ← addAll "componentRef" (entriesOf tasks) images
    addComponents executors (entriesOf (inner "components" spec)) images
  | v => throw (.invalid s!"pipeline_spec must be a dict, got {v.kindName}")

def ofPlatforms (spec : Value) : Except Fault (List Value) :=
  (entriesOf (inner "platforms" spec)).foldlM (fun images p => do
    let found ← ofExecutors (inner "executors" (inner "deploymentSpec" p.2))
    pure (found.foldl (fun acc i => Value.addMember i acc) images)) []

def ofCompiled (result : Value) : Except Fault (List Value) := do
  match result with
  | .map es =>
    match Value.named "pipeline_spec" es, Value.named "platform_spec" es with
    | some pipeline, some platform =>
      let images ← ofPipeline pipeline
      let more ← ofPlatforms platform
      pure (more.foldl (fun acc i => Value.addMember i acc) images)
    | _, _ => ofPipeline result
  | _ => pure []

end AssetCatalog.Image
