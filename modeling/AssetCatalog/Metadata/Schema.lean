import AssetCatalog.Metadata.Basic
import AssetCatalog.Version.Semantic

/-! The schema of metadata: which fields there are, in which order, and what they hold. -/

namespace AssetCatalog.Metadata

variable (name : String) (v : Value)

def requiredFields : List String := ["name", "stability", "dependencies", "lastVerified"]

def optionalFields : List String := ["tags", "ci", "links"]

def stabilities : List String := ["experimental", "alpha", "beta", "stable"]

def dependencyFields : List String := ["kubeflow", "external_services"]

def entryFields : List String := ["name", "version"]

def comparisons : List String := [">=", "<=", "=="]

def texts (names : List String) : List Value := names.map .text

def listText (names : List String) : String := (Value.list (texts names)).exact

def setText (xs : List Value) : Except Fault String := do
  let shown ← xs.mapM Value.exactText
  pure ("\x7b" ++ Text.join ", " (Text.sort shown) ++ "\x7d")

def refuse {α : Type} (message : String) : Except Fault α := throw (.schema message)

def bareVersion (s : String) : String :=
  if comparisons.contains (Text.take 2 s) then Text.drop 2 s else s

def hasValidVersion (dependency : Value) : Except Fault Bool := do
  match ← dependency.getOrNull "version" with
  | .text s => pure (Version.isSemantic (bareVersion s))
  | _ => pure false

def invalidVersions (dependencies : Value) : Except Fault (List Value) := do
  match dependencies with
  | .null => pure []
  | v =>
    (← v.visits).filterM fun d => do
      let ok ← hasValidVersion d
      pure !ok

def hasPipelines : List Value → Except Fault Bool
  | [] => pure false
  | d :: ds => do
    let name ← d.getOrNull "name"
    if name == .text "Pipelines" then pure true else hasPipelines ds

def checkEntry (d : Value) : Except Fault Unit :=
  entryFields.forM fun f => do
    let there ← d.mentions f
    if there then pure ()
    else
      let shown ← d.plainText
      refuse s!"Missing required field '{f}' in dependency: {shown}."

def isOptionalList : Value → Bool
  | .null => true
  | .list _ => true
  | _ => false

def itemsOf : Value → List Value
  | .list xs => xs
  | _ => []

def sameKeys (keys : List Value) (names : List String) : Bool :=
  keys.length = names.length && (texts names).all keys.contains

def checkDependencies : Except Fault Unit := do
  match v with
  | .map es =>
    let keys := es.map (·.1)
    if !(sameKeys keys ["kubeflow"] || sameKeys keys dependencyFields) then
      let shown ← (Value.list keys).exactText
      refuse (s!"The following field(s) were found in dependencies: {shown}. " ++
        s!"Expected {listText dependencyFields}.")
    let kubeflow := (Value.named "kubeflow" es).getD .null
    let external := (Value.named "external_services" es).getD .null
    if !kubeflow.isList || !isOptionalList external then
      refuse (s!"Dependency sub-types for '{name}' should contain lists but instead are " ++
        s!"{kubeflow.className} and {external.className}.")
    if !(← hasPipelines (itemsOf kubeflow)) then
      refuse s!"{fileName} for '{name}' is missing Kubeflow Pipelines dependency."
    (itemsOf kubeflow ++ itemsOf external).forM checkEntry
    let invalid := (← invalidVersions kubeflow) ++ (← invalidVersions external)
    if !invalid.isEmpty then
      let shown ← (Value.list invalid).exactText
      refuse (s!"{fileName} for '{name}' contains one or more dependencies with invalid " ++
        s!"semantic versioning: {shown}.")
  | v =>
    refuse (s!"{v.kindName} value identified for field 'dependencies' in {fileName} " ++
      s!"for '{name}'. Value must be array.")

def checkStability : Except Fault Unit := do
  if (texts stabilities).contains v then pure ()
  else
    let shown ← v.plainText
    refuse (s!"Invalid 'stability' value in {fileName} for '{name}': '{shown}'. " ++
      s!"Expected one of: {listText stabilities}.")

def checkTags : Except Fault Unit := do
  match v with
  | .list xs =>
    if xs.all Value.isText then pure ()
    else
      let shown ← v.plainText
      refuse (s!"The following tags in {fileName} for '{name}': {shown}. " ++
        "Expected an array of scalar strings.")
  | v => refuse (s!"{v.kindName} value identified in field 'tags' in {fileName} for '{name}'. " ++
      "Value must be string array.")

def checkAutomation : Except Fault Unit := do
  match v with
  | .map es =>
    let keys := es.map (·.1)
    if !sameKeys keys ["skip_dependency_probe"] then
      let shown ← (Value.list keys).exactText
      refuse (s!"The following field(s) were found in field 'ci' in {fileName} for '{name}': " ++
        s!"{shown}. Only field 'skip_dependency_probe' is valid.")
    match (Value.named "skip_dependency_probe" es).getD .null with
    | .null | .bool _ => pure ()
    | probe =>
      let shown ← probe.plainText
      refuse (s!"{fileName} expects a boolean value for skip_dependency_probe but " ++
        s!"{probe.kindName} value provided: '{shown}'.")
  | v => refuse (s!"{v.kindName} value identified for field 'ci' in {fileName} for '{name}'. " ++
      "Value must be dictionary.")

def checkLinks : Except Fault Unit :=
  match v with
  | .map _ => pure ()
  | v => refuse (s!"{v.kindName} value identified in field 'links' in {fileName} for '{name}'. " ++
      "Value must be dictionary.")

def checkField (field value : Value) : Except Fault Unit :=
  match field with
  | .text "stability" => checkStability name value
  | .text "dependencies" => checkDependencies name value
  | .text "tags" => checkTags name value
  | .text "ci" => checkAutomation name value
  | .text "links" => checkLinks name value
  | _ => pure ()

def nameIn (es : List (Value × Value)) : Except Fault String := do
  match (Value.named "name" es).getD .null with
  | .null => refuse s!"Missing required field 'name' in {fileName}."
  | .text s => pure s
  | v =>
    let shown ← v.plainText
    refuse (s!"{v.kindName} value identified in field 'name' in {fileName}: '{shown}'. " ++
      "Value for 'name' must be string.")

def checkFields (fields : List Value) : Except Fault Unit := do
  let missing := (texts requiredFields).filter fun f => !fields.contains f
  if !missing.isEmpty then
    let shown ← setText missing
    refuse s!"Missing required field(s) in {fileName} for '{name}': {shown}."
  let extra := fields.filter fun f => !(texts requiredFields).contains f
  if !extra.isEmpty then
    let shown ← setText extra
    refuse s!"Unexpected field(s) in {fileName} for '{name}': {shown}."
  if !(Value.list fields == Value.list (texts requiredFields)) then
    refuse (s!"Field(s) located incorrectly in {fileName} for '{name}'. " ++
      s!"Expected order is {listText requiredFields}.")

def checkSchema (metadata : Value) : Except Fault Unit := do
  match metadata with
  | .map es =>
    let fields := (es.map (·.1)).filter fun f => !(texts optionalFields).contains f
    let name ← nameIn es
    checkFields name fields
    es.forM fun (field, value) => checkField name field value
  | v => throw (.noMember s!"'{v.kindName}' object has no attribute 'keys'")

end AssetCatalog.Metadata
