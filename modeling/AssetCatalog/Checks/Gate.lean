import AssetCatalog.Arguments
import AssetCatalog.Checks.Verdict
import AssetCatalog.Json

/-! The gate before a pull request: who may pass it, and the wait for the checks of a commit. -/

namespace AssetCatalog.Checks

variable (args : Arguments)

def trustedAssociations : List String := ["MEMBER", "OWNER", "COLLABORATOR"]

def trustedLogins : List String := ["dependabot[bot]"]

/-- Whether the checks of a pull request are run: its author is trusted, or someone approved. -/
def mayRun (labels : List String) (association login : String) : Bool :=
  trustedAssociations.contains association || trustedLogins.contains login ||
    labels.contains "ok-to-test"

def runsRequest (repo commit : String) : List String :=
  ["gh", "api", "--paginate", s!"repos/{repo}/commits/{commit}/check-runs"]

def fetchRuns (repo commit : String) : Run Value := do
  let r ← Run.commandOk (runsRequest repo commit)
  Run.ofExcept (Json.parse r.output)

def ownId (repo commit name : String) : Run Value := do
  let reply ← fetchRuns repo commit
  let runs ← Run.ofExcept (do (← runsOf reply).visits)
  match ← Run.ofExcept (idOf name runs) with
  | some id => pure id
  | none => throw (.checks s!"Check run '{name}' not found")

def labelRemoval (repo : String) (number : Int) : List String :=
  ["gh", "pr", "edit", toString number, "--remove-label", "ci-passed", "--repo", repo]

def resetLabel (repo : String) (number : Int) (labels : List String) : Run Unit := do
  if labels.contains "ci-passed" then discard (Run.commandOk (labelRemoval repo number))

structure Wait where
  repo : String
  commit : String
  own : Value
  delay : Int
  retries : Int
  interval : Int
  ignored : List String := []

def heed : Verdict → Run Bool
  | .noRuns => do
    Run.log .info "No check runs registered yet. Retrying..."
    pure false
  | .alone => do
    Run.log .info "No other check runs found (only self). Done."
    pure true
  | .pending names => do
    let all := Text.join ", " names
    Run.log .info s!"{names.length} pending: {all}"
    pure false
  | .failed names => throw (.checks ("Check(s) failed: " ++ Text.join ", " names))
  | .passed count => do
    Run.log .info s!"All {count} check(s) passed."
    pure true

def poll (w : Wait) (number : Nat) : Run Bool := do
  if number > 1 then Run.pause w.interval
  Run.log .info s!"Poll {number}/{w.retries} for commit {Text.take 12 w.commit}"
  let reply ← fetchRuns w.repo w.commit
  let verdict ← Run.ofExcept (judge w.own w.ignored reply)
  heed verdict

def pollFrom (w : Wait) (number : Nat) : Nat → Run Unit
  | 0 => throw (.checks "Checks did not complete within the retry limit")
  | left + 1 => do
    if !(← poll w number) then pollFrom w (number + 1) left

def await (w : Wait) : Run Unit := do
  if w.delay > 0 then
    Run.log .info s!"Waiting {w.delay} seconds before first poll..."
    Run.pause w.delay
  pollFrom w 1 w.retries.toNat

def savePayload (folder : Path) (number : Int) (event : String) : Run Unit := do
  Run.makeFolders folder
  Run.writeText (folder.below "pr_number") s!"{number}\n"
  Run.writeText (folder.below "event_action") s!"{event}\n"

def number (flag : String) : Argument :=
  { Argument.needed flag with complaint := Argument.wholeNumber }

def gateArguments : List Argument :=
  [ number "--pr-number", .needed "--repo", .needed "--event-action", .needed "--labels",
    .needed "--author-association", .needed "--author-login", .needed "--head-sha",
    .needed "--check-name", number "--delay", number "--retries", number "--polling-interval",
    .needed "--ignore-checks", .needed "--output-dir" ]

def labelsOf : List String :=
  (Text.split "," (args.textOf "--labels" "")).filter (· ≠ "")

def ignoredOf : List String :=
  ((Text.split "," (args.textOf "--ignore-checks" "")).map Text.trim).filter (· ≠ "")

def waitOf (own : Value) : Wait :=
  { repo := args.textOf "--repo" "", commit := args.textOf "--head-sha" "", own
    delay := args.intOf "--delay" 0, retries := args.intOf "--retries" 0
    interval := args.intOf "--polling-interval" 0, ignored := ignoredOf args }

def resetFor : Run Unit :=
  let event := args.textOf "--event-action" ""
  if event = "synchronize" || event = "reopened" then
    resetLabel (args.textOf "--repo" "") (args.intOf "--pr-number" 0) (labelsOf args)
  else pure ()

def saveFor : Run Int := do
  savePayload (Path.ofText (args.textOf "--output-dir" "")) (args.intOf "--pr-number" 0)
    (args.textOf "--event-action" "")
  pure 0

def proceed : Run Int := do
  let own ← ownId (args.textOf "--repo" "") (args.textOf "--head-sha" "") (args.textOf "--check-name" "")
  match ← Run.attempt (await (waitOf args own)) with
  | .ok _ => saveFor args
  | .error (.checks m) =>
    Run.log .error s!"CI checks failed: {m}"
    pure 1
  | .error e => throw e

def mayRunFor : Bool :=
  mayRun (labelsOf args) (args.textOf "--author-association" "") (args.textOf "--author-login" "")

def command (words : List String) : Run Int := do
  let args ← CommandLine.read gateArguments words
  resetFor args
  if mayRunFor args then proceed args
  else
    Run.log .info "PR requires '/ok-to-test' approval. Skipping CI checks."
    pure 0

end AssetCatalog.Checks
