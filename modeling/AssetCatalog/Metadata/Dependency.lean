import AssetCatalog.Metadata.Basic
import AssetCatalog.Version.Specifier

/-! What is wrong with the dependencies that metadata declares, read as version specifiers. -/

namespace AssetCatalog.Metadata

def dependencySections : List (String × String) :=
  [("kubeflow", "Kubeflow dependency"), ("external_services", "External service dependency")]

def nameOrUnknown (name : Value) : Except Fault String :=
  if name.truthy then name.plainText else pure "<unknown>"

def entryComplaints (label : String) : Value → Except Fault (List String)
  | .map es => do
    let name := (Value.named "name" es).getD .null
    let version := (Value.named "version" es).getD .null
    let unnamed := if name.truthy then [] else [s!"{label} is missing a `name` field."]
    let versioned ←
      if version.truthy then do
        match Version.specifierComplaint? (← version.plainText) with
        | some c =>
          let owner ← nameOrUnknown name
          pure [s!"{label} for {owner} has an invalid version specifier {version.exact}: {c}"]
        | none => pure []
      else do
        let owner ← nameOrUnknown name
        pure [s!"{label} for {owner} is missing a `version` field."]
    pure (unnamed ++ versioned)
  | v => do
    let shown ← v.exactText
    pure [s!"{label} entries must be mappings: {shown}"]

def sectionComplaints (section_ label : String) (entries : Value) : Except Fault (List String) :=
  if !entries.truthy then pure []
  else match entries with
    | .list xs => do
      let complaints ← xs.mapM (entryComplaints label)
      pure complaints.flatten
    | _ => pure [s!"`dependencies.{section_}` must be a list."]

def dependencyComplaints (metadata : Value) : Except Fault (List String) := do
  let dependencies := (← metadata.getOrNull "dependencies").orElse (.map [])
  match dependencies with
  | .map es =>
    let complaints ← dependencySections.mapM fun (key, label) =>
      sectionComplaints key label ((Value.named key es).getD (.list []))
    pure complaints.flatten
  | _ => pure ["`dependencies` must be a mapping."]

end AssetCatalog.Metadata
