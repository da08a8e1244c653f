import AssetCatalog.Arguments
import AssetCatalog.Asset.Compiled
import AssetCatalog.Image.Specification

/-! The check that the base images of assets carry an expected tag. -/

namespace AssetCatalog.Image

variable (file : Path)

/-- Word characters stay, and each run of others becomes one underscore. -/
def underscored : List Char → List Char
  | [] => []
  | c :: cs =>
    if Text.isWordPart c then c :: underscored cs
    else
      match underscored cs with
      | rest@('_' :: _) =>
        if (cs.head?.map fun d => !Text.isWordPart d).getD false then rest else '_' :: rest
      | rest => '_' :: rest

def moduleName (type : String) : String :=
  let name := underscored s!"check_base_image_tags_{type}_{file.text}".toList
  let name := String.ofList name
  if Text.isIdentifier name.toList then name else "m_" ++ name

def candidateFiles (directories : List String) : Run (List (String × Path)) := do
  let found ← directories.mapM fun d => do
    let p := Path.ofText d
    if ← Run.exists? p then
      let components ← Run.search p (· = "component.py")
      let pipelines ← Run.search p (· = "pipeline.py")
      pure (components.map (("component", ·)) ++ pipelines.map (("pipeline", ·)))
    else pure []
  pure (found.flatten.mergeSort fun a b => Text.le a.2.text b.2.text)

structure TagResult where
  file : Option String
  line : Int := 0
  status : Option String
  found : Option String := none
  expected : Option String := none
  error : Option String := none
deriving DecidableEq, Repr, Inhabited

def TagResult.valid (file : Path) : TagResult := { file := some file.text, status := some "valid" }

def TagResult.wrongTag (found expected : String) : TagResult :=
  { file := some file.text, status := some "invalid", found := some found, expected := some expected }

def TagResult.broken (message : String) : TagResult :=
  { file := some file.text, status := some "invalid", error := some message }

def imagesOfFile (type : String) : Run (Except String (Option (List Value))) := do
  let scratch := (← read).scratch
  let name := moduleName file type
  match ← Run.attempt (Run.loadModule file) with
  | .error e => pure (.error s!"Failed to load module: {e.message}")
  | .ok members =>
    let members := Asset.membersOfType type members
    if members.isEmpty then pure (.ok none)
    else go scratch name members []
where
  go (scratch : Path) (name : String) : List Member → List Value →
      Run (Except String (Option (List Value)))
    | [], images => pure (.ok (some images))
    | m :: ms, images => do
      let place := s!"{scratch.text}/{name}_{m.name}.yaml"
      match m.specification place with
      | .error e => pure (.error s!"Compilation failed for function '{m.name}': {e.message}")
      | .ok spec =>
        let found ← Run.ofExcept (ofCompiled spec)
        go scratch name ms (found.foldl (fun acc i => Value.addMember i acc) images)

def textsOf (images : List Value) : Except Fault (List String) :=
  images.mapM fun v => match v with
    | .text s => pure s
    | .bytes _ => throw .wrongKind
    | v => throw (.noMember s!"'{v.kindName}' object has no attribute 'startswith'")

def verdict (family tag : String) (file : Path) (image : String) : TagResult :=
  if Text.endsWith image (":" ++ tag) then .valid file
  else .wrongTag file image s!"{family}-<name>:{tag}"

/-- Checks the images that belong to a family, that is start with its name and a hyphen. -/
def checkTags (directories : List String) (family tag : String) : Run (Bool × List TagResult) := do
  let files ← candidateFiles directories
  let results ← files.mapM fun (type, file) => do
    match ← imagesOfFile file type with
    | .error m => pure [TagResult.broken file m]
    | .ok none => pure []
    | .ok (some images) =>
      let images ← Run.ofExcept (textsOf images)
      let own := Text.sort (images.filter fun i => Text.startsWith i (family ++ "-"))
      pure (own.map (verdict family tag file))
  let results := results.flatten
  pure (results.all fun r => r.status = some "valid", results)

def needField (x : Option String) : Run String :=
  match x with
  | some s => pure s
  | none => throw .noKey

def printTagResult (tag : String) (r : TagResult) : Run Unit := do
  if r.status = some "invalid" then
    let file ← needField r.file
    let location := if r.line = 0 then file else s!"{file}:{r.line}"
    Run.print s!"  ❌ {location}: does not use :{tag} tag"
    match r.found with
    | some found =>
      Run.print s!"    Found: {found}"
      let expected ← needField r.expected
      Run.print s!"    Expected: {expected}"
    | none =>
      let error := r.error.getD "unknown error"
      Run.print s!"    Error: {error}"

def printTagResults (results : List TagResult) (allValid : Bool) (tag : String) : Run Unit := do
  Run.print s!"🔍 Checking that base_image references use :{tag} tag..."
  if allValid then
    Run.print ""
    Run.print s!"✅ All base_image references use :{tag} tag (or no references found)"
  else
    results.forM (printTagResult tag)
    Run.print ""
    Run.print s!"❌ Some base_image references do not use :{tag} tag"
    Run.print s!"   Update your decorators: base_image=\"<prefix>-<name>:{tag}\""

def tagCheckCommand (words : List String) : Run Int := do
  let args ← CommandLine.read
    [ .positional "image_prefix",
      { Argument.needed "--directories" with arity := .oneOrMore },
      .needed "--expected-tag" ] words
  let tag := args.textOf "--expected-tag" ""
  let (ok, results) ← checkTags (args.wordsOf "--directories") (args.textOf "image_prefix" "") tag
  printTagResults results ok tag
  pure (if ok then 0 else 1)

end AssetCatalog.Image
