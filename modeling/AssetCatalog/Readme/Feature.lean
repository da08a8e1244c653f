import AssetCatalog.Metadata.Basic
import AssetCatalog.Readme.Title

/-! The metadata of an asset with its owners, and how a page shows them. -/

namespace AssetCatalog.Readme

def bulleted (depth : Nat) (items : List String) : String :=
  let mark := "\n" ++ Text.times depth "  " ++ "  - "
  mark ++ Text.join mark items

def entryText (e : Value × Value) : Except Fault String := do
  let key ← titleOf e.1
  let text ← e.2.plainText
  pure (key ++ ": " ++ text)

def itemText : Value → Except Fault String
  | .map es => do
    let parts ← es.mapM entryText
    pure (Text.join ", " parts)
  | v => v.plainText

mutual

def formatValue (depth : Nat) : Value → Except Fault String
  | .bool b => pure (if b then "Yes" else "No")
  | .list xs =>
    if xs.isEmpty then pure "None"
    else do
      let items ← xs.mapM itemText
      pure (bulleted depth items)
  | .map es =>
    if es.isEmpty then pure "None"
    else do
      let items ← formatEntries (depth + 1) es
      pure (bulleted depth items)
  | v => v.plainText

/-- The entries of a mapping; a value of several lines follows its key directly. -/
def formatEntries (depth : Nat) : List (Value × Value) → Except Fault (List String)
  | [] => pure []
  | (k, v) :: es => do
    let key ← titleOf k
    let text ← formatValue depth v
    let rest ← formatEntries depth es
    pure ((if text.toList.contains '\n' then key ++ ":" ++ text else key ++ ": " ++ text) :: rest)

end

def formatFeatures (features : Value) : Except Fault (List (String × String)) := do
  match features with
  | .map es =>
    let pairs ← es.mapM fun (k, v) => do
      let key ← titleOf k
      let text ← formatValue 0 v
      pure (key, text)
    pure (pairs.foldl (fun acc p => put p acc) [])
  | v => throw (.noMember s!"'{v.kindName}' object has no attribute 'items'")
where
  put (p : String × String) : List (String × String) → List (String × String)
    | [] => [p]
    | q :: qs => if q.1 = p.1 then p :: qs else q :: put p qs

def loadOwners (source : Path) : Run Value := do
  let file := source.below "OWNERS"
  if ← Run.exists? file then
    match ← Run.attempt (Metadata.loadYaml file) with
    | .ok v => pure (v.orElse (.map []))
    | .error _ =>
      Run.log .warning s!"Error reading OWNERS file ({file.text})"
      pure (.map [])
  else pure (.map [])

def withoutAutomation (v : Value) : Except Fault Value := do
  if ← v.mentions "ci" then
    match v with
    | .map es => pure (.map (Value.erase (.text "ci") es))
    | .text _ => throw .noMember
    | _ => throw .wrongKind
  else pure v

def withOwners (owners v : Value) : Except Fault Value :=
  if owners.truthy then
    match v with
    | .map es => pure (.map (Value.put (.text "owners") owners es))
    | _ => throw .wrongKind
  else pure v

def loadFeatures (source : Path) : Run Value := do
  let file := source.below Metadata.fileName
  if !(← Run.exists? file) then
    throw (.invalid s!"Required metadata.yaml file not found in {source.text}")
  let v ← tryCatch (Metadata.loadYaml file) fun e => do
    Run.log .warning "Could not load metadata.yaml"
    throw e
  match v with
  | .null => throw (.invalid s!"Required metadata.yaml file is empty: {file.text}")
  | v =>
    if !(← Run.ofExcept (v.mentions "name")) then
      throw (.invalid s!"Required `name` field not found in {file.name}")
    let v ← Run.ofExcept (withoutAutomation v)
    let owners ← loadOwners source
    Run.ofExcept (withOwners owners v)

end AssetCatalog.Readme
