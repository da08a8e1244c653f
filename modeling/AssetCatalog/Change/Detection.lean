import AssetCatalog.Arguments
import AssetCatalog.Change.Asset
import AssetCatalog.Json
import AssetCatalog.Regex.Match
import AssetCatalog.Regex.Reader
import AssetCatalog.Value.Display

/-! Which assets changed between two revisions. -/

namespace AssetCatalog.Change

structure Detection where
  components : List String := []
  pipelines : List String := []
  all : List String := []
  filtered : List String := []
deriving DecidableEq, Repr, Inhabited

variable (d : Detection) (words : List String)

namespace Detection

def hasComponents (d : Detection) : Bool := !d.components.isEmpty

def hasPipelines (d : Detection) : Bool := !d.pipelines.isEmpty

def hasChanges (d : Detection) : Bool := d.hasComponents || d.hasPipelines

end Detection

def failureText (status : Int) : String :=
  s!"Command '{(Value.list (words.map .text)).exact}' returned non-zero exit status {status}."

def git (words : List String) : Run String := do
  let r ← Run.command ("git" :: words)
  pure (Text.trim r.output)

def gitOk : Run String := do
  let full := "git" :: words
  let r ← Run.command full
  if r.status = 0 then pure (Text.trim r.output)
  else
    Run.printAll
      [ "DEBUG: Git command failed: " ++ Text.join " " words,
        "DEBUG: Error: " ++ failureText full r.status,
        s!"DEBUG: Error output: {r.errors}", s!"DEBUG: Error code: {r.status}" ]
    throw (.command full r.status)

/-- Fetches a branch of the remote; one that answers nothing is fetched again, to some depth. -/
def fetchBranch (base : String) : Run Unit := do
  let start := "origin/"
  if Text.startsWith base start && base ≠ "origin/HEAD" then
    let branch := Text.drop start.length base
    let answer ← git ["fetch", "origin", s!"{branch}:refs/remotes/origin/{branch}"]
    if answer = "" then discard (git ["fetch", "--depth=100", "origin", branch])

def changedFiles (base head : String) (skipDeleted : Bool) : Run (List String) := do
  let mergeBase ← git ["merge-base", base, head]
  let flag := if skipDeleted then ["--diff-filter=d"] else []
  let revisions := if mergeBase = "" then [s!"{base}...{head}"] else [mergeBase, head]
  match ← Run.attempt (gitOk (["diff", "--name-only"] ++ flag ++ revisions)) with
  | .ok output => pure ((Text.split "\n" output).filter (· ≠ ""))
  | .error e =>
    match e with
    | .command words status =>
      Run.print ("DEBUG: Error getting changed files: " ++ failureText words status)
    | _ => pure ()
    throw e

/-- The files in which an expression occurs; all, if it is empty or none. -/
def applyFilter (files : List String) (pattern : String) : Except Fault (List String) :=
  if pattern = "" then pure files
  else match Regex.parse pattern with
    | .ok r => pure (files.filter r.matchesWithin)
    | .error .pattern => pure files
    | .error e => throw e

def detect (base head filter : String) (skipDeleted : Bool) : Run Detection := do
  fetchBranch base
  let all ← changedFiles base head skipDeleted
  let filtered ← Run.ofExcept (applyFilter all filter)
  pure
    { components := assetsOf "components" filtered, pipelines := assetsOf "pipelines" filtered
      all, filtered }

def flagText (b : Bool) : String := if b then "true" else "false"

def jsonList (xs : List String) : String := Json.compact (.list (xs.map .text))

def Detection.outputs : List (String × String) :=
  [ ("changed-components", Text.join " " d.components),
    ("changed-pipelines", Text.join " " d.pipelines),
    ("changed-components-json", jsonList d.components),
    ("changed-pipelines-json", jsonList d.pipelines),
    ("changed-components-count", toString d.components.length),
    ("changed-pipelines-count", toString d.pipelines.length),
    ("has-changes", flagText d.hasChanges),
    ("has-changed-components", flagText d.hasComponents),
    ("has-changed-pipelines", flagText d.hasPipelines),
    ("all-changed-files", Text.join " " d.all),
    ("filtered-changed-files", Text.join " " d.filtered) ]

def outputText (outputs : List (String × String)) : String :=
  String.join (outputs.map fun (k, v) => s!"{k}={v}\n")

def Detection.summary : List String :=
  ["## Changed Assets", "", s!"**Components:** {d.components.length}"] ++ d.components.map ("- " ++ ·) ++
    ["", s!"**Pipelines:** {d.pipelines.length}"] ++ d.pipelines.map ("- " ++ ·)

def Detection.report : List String :=
  let items (xs : List String) : List String := xs.map ("  - " ++ ·)
  let excluded :=
    if d.filtered.length ≠ d.all.length then items d.filtered
    else
      [ "(No files excluded by filter, filtered_changed_files is the same as " ++
          "all_changed_files listed above)" ]
  [s!"Components: {d.components.length}"] ++ items d.components ++
    [s!"Pipelines: {d.pipelines.length}"] ++ items d.pipelines ++
    [s!"All changed files: {d.all.length}"] ++ items d.all ++
    [s!"Filtered changed files: {d.filtered.length}"] ++ excluded

def appendTo (variable_ text : String) : Run Unit := do
  let file := (← Run.setting? variable_).getD ""
  if file ≠ "" then Run.appendText (Path.ofText file) text

def publish : Run Unit := do
  appendTo "GITHUB_OUTPUT" (outputText d.outputs)
  appendTo "GITHUB_STEP_SUMMARY" (Text.join "\n" d.summary ++ "\n")
  let actions := (← Run.setting? "GITHUB_ACTIONS").getD ""
  if actions = "" then Run.printAll d.report

def command : Run Int := do
  let args ← CommandLine.read
    [.option "--base-ref", .option "--head-ref", .option "--filter", .switch "--skip-deleted-files"]
    words
  let d ← detect (args.textOf "--base-ref" "origin/HEAD") (args.textOf "--head-ref" "HEAD")
    (args.textOf "--filter" "") (args.has "--skip-deleted-files")
  publish d
  pure 0

end AssetCatalog.Change
