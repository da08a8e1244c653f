import AssetCatalog.Value.Access

/-! What check runs say on a commit, without the asking one and those ignored by their names. -/

namespace AssetCatalog.Checks

def passingConclusions : List String := ["success", "neutral", "skipped"]

inductive Verdict where
  | noRuns
  | alone
  | pending (names : List String)
  | failed (names : List String)
  | passed (count : Nat)
deriving DecidableEq, Repr, Inhabited

def runsOf (reply : Value) : Except Fault Value := do
  let runs ← reply.get "check_runs"
  pure (runs.getD (.list []))

/-- Whether a value is one of some texts; what cannot be compared with the members of a set is refused. -/
def amongTexts (names : List String) (v : Value) : Except Fault Bool :=
  match v with
  | .text s => pure (names.contains s)
  | v => if v.hashable then pure false else throw (.wrongKind s!"unhashable type: '{v.kindName}'")

def counts (own : Value) (ignored : List String) (run : Value) : Except Fault Bool := do
  let id ← run.need "id"
  if id.same own then pure false
  else
    let name ← run.need "name"
    let skip ← amongTexts ignored name
    pure !skip

def keep (test : Value → Except Fault Bool) : List Value → Except Fault (List Value)
  | [] => pure []
  | v :: vs => do
    let b ← test v
    let rest ← keep test vs
    pure (if b then v :: rest else rest)

def namesOf (runs : List Value) : Except Fault (List String) :=
  runs.mapM fun r => do
    let name ← r.need "name"
    name.asText

def isPending (run : Value) : Except Fault Bool := do
  let status ← run.need "status"
  pure !(status.same (.text "completed"))

def isPassing (run : Value) : Except Fault Bool := do
  let conclusion ← run.getOrNull "conclusion"
  amongTexts passingConclusions conclusion

def judge (own : Value) (ignored : List String) (reply : Value) : Except Fault Verdict := do
  let all ← runsOf reply
  let runs ← keep (counts own ignored) (← all.visits)
  if runs.isEmpty then pure (if all.truthy then .alone else .noRuns)
  else
    let pending ← keep isPending runs
    if !pending.isEmpty then
      let names ← namesOf pending
      pure (.pending names)
    else
      let failed ← keep (fun r => do pure !(← isPassing r)) runs
      if failed.isEmpty then pure (.passed runs.length)
      else
        let names ← namesOf failed
        pure (.failed names)

def idOf (name : String) : List Value → Except Fault (Option Value)
  | [] => pure none
  | r :: rs => do
    let n ← r.need "name"
    if n.same (.text name) then
      let id ← r.need "id"
      pure (some id)
    else idOf name rs

end AssetCatalog.Checks
