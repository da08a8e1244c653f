import AssetCatalog.Arguments
import AssetCatalog.Metadata.Schema

/-! Validation of the folders of assets: their owners, the age of their metadata, and the schema. -/

namespace AssetCatalog.Metadata

variable (p : Path)

def ownersName : String := "OWNERS"

def fileLines (s : String) : List String :=
  let ls := Text.split "\n" s
  if ls.getLast? = some "" then ls.dropLast else ls

def namesApprover : List String → Bool
  | line :: next :: rest =>
    let item := Text.trim next
    (Text.startsWith line "approvers:" && Text.startsWith item "-" && item.length > 2) ||
      namesApprover (next :: rest)
  | _ => false

/-- The lines of a file that can be read, without the line ends. In front of bytes that are no text only
lines count whose end has been read. -/
def readableLines : Content → List String
  | .text s => fileLines (String.ofList (Text.unifyNewlines s.toList))
  | .bytes bs =>
    let cs := ((String.fromUTF8? ⟨(Text.readableBytes bs).toArray⟩).getD "").toList
    let ended := if cs.getLast? = some '\r' then cs.dropLast else cs
    (Text.split "\n" (String.ofList (Text.unifyNewlines ended))).dropLast

def checkOwners : Run Unit := do
  if !(← Run.isFile p) then throw (.schema s!"{p.text} is not a valid filepath.")
  let c ← Run.content p
  if namesApprover (readableLines c) then
    Run.log .info
      s!"OWNERS file at {p.text} contains at least one approver under heading 'approvers:'."
  else
    let _ ← Run.ofExcept c.lineText
    throw (.schema s!"OWNERS file at {p.text} requires 1+ approver under heading 'approvers:'.")

def daysBetween (start stop : Int) : Int := (stop - start).fdiv Moment.dayLength

def checkVerified (v : Value) : Run Bool := do
  match v with
  | .moment t =>
    if t.offset.isNone then
      throw (.wrongKind "can't subtract offset-naive and offset-aware datetimes")
    let now := (← read).now
    let days := (daysBetween t.instant now.instant).natAbs
    if days ≥ 365 then
      Run.log .error
        s!"'lastVerified' should be within 1 year of current date, but is {days} days over."
      pure false
    else pure true
  | v =>
    let shown ← Run.ofExcept v.plainText
    Run.log .error
      s!"'lastVerified' should be format YYYY-MM-DDT00:00:00Z, but instead is: {shown}."
    pure false

def checkFile : Run Unit := do
  if !(← Run.isFile p) then throw (.schema s!"{p.text} is not a valid filepath.")
  let metadata ← loadYaml p
  if !(← Run.ofExcept (metadata.mentions "lastVerified")) then
    throw (.schema s!"Metadata at {p.text} has corresponding metadata.yaml with no 'lastVerified' value.")
  let verified ← Run.ofExcept (metadata.getOrNull "lastVerified")
  if !(← checkVerified verified) then
    throw (.schema (s!"Metadata at {p.text} has corresponding metadata.yaml with invalid " ++
      s!"'lastVerified' value: {verified.plain}."))
  Run.ofExcept (checkSchema metadata)

def checkFolder (raw : String) : Run Path := do
  let p := Path.ofText raw
  if !(← Run.exists? p) then throw (.argument s!"Directory '{p.text}' does not exist")
  if !(← Run.isFolder p) then throw (.argument s!"'{p.text}' is not a directory")
  pure p

def foldersToValidate : Run (List Path) := do
  if ← Run.exists? (p.below fileName) then pure [p]
  else
    let found ← (← Run.folderItems p).filterM fun q => do
      if ← Run.isFolder q then Run.exists? (q.below fileName) else pure false
    if found.isEmpty then
      throw (.argument (s!"'{p.text}' does not contain a {fileName} file and has no " ++
        "subdirectories with one. If this is a subcategory, ensure it contains component directories."))
    pure found

def reported (check : Run Unit) : Run Bool := do
  match ← Run.attempt check with
  | .ok _ => pure true
  | .error (.schema m) =>
    Run.log .error s!"Validation Error: {m}"
    pure false
  | .error e => throw e

def validateFolder : Run Bool := do
  Run.print s!"Validating {p.text}..."
  let owners ← reported (checkOwners (p.below ownersName))
  let metadata ← reported (checkFile (p.below fileName))
  if owners && metadata then
    Run.log .info s!"Validation successful for {p.text}."
    Run.print s!"Validation successful for {p.text}."
  pure (owners && metadata)

def validateSubcategory : Run Bool := do
  if ← Run.isFile (p.below ownersName) then reported (checkOwners (p.below ownersName))
  else
    Run.log .error s!"Subcategory directory '{p.text}' is missing a required {ownersName} file."
    pure false

def validateAll : Run Unit := do
  match ← Run.attempt (foldersToValidate p) with
  | .error (.argument m) =>
    Run.log .error s!"Error: {m}"
    throw (.exit 1)
  | .error e => throw e
  | .ok folders =>
    let own ← if ← Run.exists? (p.below fileName) then pure true else validateSubcategory p
    let results ← folders.mapM validateFolder
    if !(own && results.all id) then throw (.exit 1)

def folderComplaint (word : String) : Run (Option String) := do
  match ← Run.attempt (checkFolder word) with
  | .ok _ => pure none
  | .error (.argument m) => pure (some m)
  | .error e => throw e

def validateArguments : List Argument :=
  [{ Argument.needed "--dir" with complaint := folderComplaint }]

def validateCommand (words : List String) : Run Unit := do
  let args ← CommandLine.read validateArguments words
  validateAll (Path.ofText (args.textOf "--dir" ""))

end AssetCatalog.Metadata
