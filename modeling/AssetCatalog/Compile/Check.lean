import AssetCatalog.Arguments
import AssetCatalog.Asset.Compiled
import AssetCatalog.Metadata.Dependency
import AssetCatalog.Metadata.Target

/-! The compile check: every asset whose metadata asks for it is loaded and compiled. -/

namespace AssetCatalog.Compile

open Metadata (Target)

variable (t : Target)

def namePart (s : String) : String := Text.replace "." "_" (Text.replace "-" "_" s)

def moduleName (repository file : Path) : Except Fault String :=
  match (file.relativeTo? repository).bind Path.withoutSuffix? with
  | some p => pure ("compile_check_" ++ Text.join "_" (p.parts.map namePart))
  | none => throw .outOfRange

structure Outcome where
  compiled : List String := []
  errors : List String := []
deriving DecidableEq, Repr, Inhabited

namespace Outcome

def succeeded (o : Outcome) : Bool := o.errors.isEmpty

end Outcome

/-- The members of a module that its target is about: a pipeline is made of a graph of steps, and a
component is not. -/
def membersFor (kind : String) (ms : List Member) : List Member :=
  (Asset.membersOfType kind ms).filter fun m => m.graph = (kind = "pipeline")

def compileMembers (scratch : Path) (t : Target) (name : String) : List Member → Outcome
  | [] => {}
  | m :: ms =>
    let file := s!"{name}_{m.name}.yaml"
    match m.specification (scratch.below file).text with
    | .ok _ =>
      let rest := compileMembers scratch t name ms
      { rest with compiled := s!"{m.name} -> {file}" :: rest.compiled }
    | .error _ => { errors := [s!"Failed to compile {t.kind} `{m.name}` from {t.modulePath.text}."] }

def loadTarget : Run (String × List Member) := do
  let name ← Run.ofExcept (moduleName (← read).repository t.modulePath)
  let members ← Run.loadModule t.modulePath
  pure (name, members)

def compileTarget : Run Outcome := do
  match ← Run.attempt (loadTarget t) with
  | .error _ => pure { errors := [s!"Failed to load module defined in {t.modulePath.text}."] }
  | .ok (name, members) =>
    match membersFor t.kind members with
    | [] => pure { errors :=
        [s!"No @dsl.{t.kind} decorated functions discovered in module {t.modulePath.text}."] }
    | ms => pure (compileMembers (← read).scratch t name ms)

def outcome : Run Outcome := do
  match ← Run.ofExcept (Metadata.dependencyComplaints t.metadata) with
  | [] => compileTarget t
  | complaints => pure { errors := complaints }

def validate : Run Outcome := do
  let o ← outcome t
  o.errors.forM (Run.log .error)
  pure o

def displayName (repository : Path) (t : Target) : Except Fault String := do
  let name ← t.metadata.getOrNull "name"
  let folder := t.metadataPath.parent
  if name.truthy then name.plainText
  else pure ((folder.relativeTo? repository).getD folder).text

def report : Run Outcome := do
  let name ← Run.ofExcept (displayName (← read).repository t)
  Run.log .info s!"Validating {name} ({t.kind}) from {t.metadataPath.text}"
  let o ← validate t
  if o.succeeded then
    let what := if o.compiled.isEmpty then "no output" else Text.join ", " o.compiled
    Run.log .info s!"✓ {name} compiled successfully ({what})"
  else
    Run.log .error s!"✗ {name} failed validation ({o.errors.length} error(s))"
  pure o

def reportAll (failFast : Bool) : List Target → Run (List Outcome)
  | [] => pure []
  | t :: ts => do
    let o ← report t
    if failFast && !o.succeeded then pure [o]
    else
      let os ← reportAll failFast ts
      pure (o :: os)

def status (os : List Outcome) : Int := if os.all Outcome.succeeded then 0 else 1

def run (failFast : Bool) (targets : List Target) : Run Int := do
  if targets.isEmpty then
    Run.log .info "No targets discovered for compile check."
    pure 0
  else
    let os ← reportAll failFast targets
    let succeeded := os.countP Outcome.succeeded
    Run.log .info
      s!"Validation complete: {succeeded} succeeded, {os.length - succeeded} failed."
    if status os ≠ 0 then Run.log .error "Compile check failed for the targets listed above."
    pure (status os)

def checkArguments : List Argument :=
  [.option "--path", .switch "--fail-fast", .switch "--include-flagless", .switch "--verbose"]

def checkCommand (words : List String) : Run Int := do
  let args ← CommandLine.read checkArguments words
  let targets ← Metadata.targets (← Metadata.discover) (args.has "--include-flagless")
    (args.allOf "--path")
  run (args.has "--fail-fast") targets

end AssetCatalog.Compile
