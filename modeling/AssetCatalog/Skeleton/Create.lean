import AssetCatalog.Arguments
import AssetCatalog.Skeleton.Template

/-! Making the folders and files of an asset, of its subcategory, and of its tests. -/

namespace AssetCatalog.Skeleton

structure Place where
  draft : Draft
  subcategory : Option String := none
deriving DecidableEq, Repr, Inhabited

variable (p : Place)

def typeFolder (type : String) : String := type ++ "s"

def subcategoryFolder (type category subcategory : String) : Path :=
  Path.ofText s!"{typeFolder type}/{category}/{subcategory}"

namespace Place

def group? (p : Place) : Option String := p.subcategory.filter (· ≠ "")

def folder (p : Place) : Path :=
  let d := p.draft
  match p.group? with
  | some s => Path.ofText s!"{typeFolder d.type}/{d.category}/{s}/{d.name}"
  | none => Path.ofText s!"{typeFolder d.type}/{d.category}/{d.name}"

def makeWords (p : Place) : String :=
  let d := p.draft
  let group := (p.group?.map fun s => " SUBCATEGORY=" ++ s).getD ""
  s!"CATEGORY={d.category}{group} NAME={d.name}"

def commandHints (p : Place) : String × String :=
  let d := p.draft
  let group := (p.group?.map fun s => " --subcategory=" ++ s).getD ""
  ( "python scripts/generate_skeleton/generate_skeleton.py " ++
      s!"--type={d.type} --category={d.category}{group} --name={d.name}",
    s!"make {d.type} {p.makeWords}" )

end Place

def existingCategories (type : String) : Run (List String) := do
  let base := Path.ofText (typeFolder type)
  if ← Run.exists? base then
    let items ← (← Run.folderItems base).filterM Run.isFolder
    pure ((items.map Path.name).filter fun n => !(Text.startsWith n "." || Text.startsWith n "_"))
  else pure []

def writeNew (p : Path) (text : String) : Run Unit := do
  if !(← Run.exists? p) then Run.writeText p text

def writeAll (folder : Path) (files : List NamedText) : Run Unit :=
  files.forM fun (name, text) => Run.writeText (folder.below name) text

def ensureSubcategory (type category subcategory : String) (shared : Bool) : Run Path := do
  let folder := subcategoryFolder type category subcategory
  Run.makeFolders folder
  (subcategoryFiles subcategory).forM fun (name, text) => writeNew (folder.below name) text
  writeNew (folder.below "__init__.py") s!"\"\"\"Assets in the {subcategory} subcategory.\"\"\"\n"
  if shared then
    let inner := folder.below "shared"
    Run.makeFolders inner
    writeNew (inner.below "__init__.py")
      s!"\"\"\"Shared utilities for the {subcategory} subcategory.\"\"\"\n"
    writeNew (inner.below (subcategory ++ "_utils.py"))
      (s!"\"\"\"Shared utility functions for the {subcategory} subcategory.\"\"\"\n" ++
        "\n\n# TODO: Add shared utility functions, classes, or constants here.\n")
  pure folder

def ensureGroup (shared : Bool) : Run Unit :=
  match p.group? with
  | some s => discard (ensureSubcategory p.draft.type p.draft.category s shared)
  | none => pure ()

def makeRoom (tests : Bool) : Run Unit := do
  Run.makeFolders p.folder
  if tests then Run.makeFolders (p.folder.below "tests")

def create (tests shared : Bool) : Run Path := do
  ensureGroup p shared
  makeRoom p tests
  let core ← Run.ofExcept (coreFiles p.draft (← read).now)
  writeAll p.folder core
  if tests then writeAll (p.folder.below "tests") (testFiles p.draft)
  pure p.folder

def missingFolder : String :=
  let d := p.draft
  let place := match p.group? with
    | some s => s!"subcategory '{s}' of category '{d.category}'"
    | none => s!"category '{d.category}'"
  let (script, make) := p.commandHints
  Text.trim (Text.join "\n"
    [ s!"Error: {Text.titleCase d.type} '{d.name}' does not exist in {place}.", "",
      s!"Expected directory: {p.folder.text}", "", s!"To create this {d.type} first, run:",
      "  " ++ script, "", "Or use the Makefile:", "  " ++ make ])

def missingModule (module : Path) : String :=
  let d := p.draft
  let (script, make) := p.commandHints
  Text.trim (Text.join "\n"
    [ s!"Error: {Text.titleCase d.type} '{d.name}' directory exists but missing main file.", "",
      s!"Expected file: {module.text}", "",
      s!"The {d.type} directory exists but appears incomplete. Please recreate it:",
      "  " ++ script, "", "Or use the Makefile:", "  " ++ make ])

def createTests : Run Path := do
  let module := p.folder.below (p.draft.type ++ ".py")
  if !(← Run.exists? p.folder) then throw (.invalid (missingFolder p))
  if !(← Run.exists? module) then throw (.invalid (missingModule p module))
  let tests := p.folder.below "tests"
  Run.makeFolders tests
  writeAll tests (testFiles p.draft)
  pure tests

def numbered (from_ : Nat) : List String → List String
  | [] => []
  | s :: ss => s!"{from_}. {s}" :: numbered (from_ + 1) ss

def nextSteps (tests : Bool) : List String :=
  let d := p.draft
  let folder := p.folder.text
  let words := s!"TYPE={d.type} {p.makeWords}"
  let page := s!"Update {folder}/README.md with actual documentation or run: make readme {words}"
  let group := match p.group? with
    | some s =>
      let above := (subcategoryFolder d.type d.category s).text
      [ s!"Update {above}/OWNERS with subcategory owners",
        s!"Update {above}/README.md with subcategory documentation" ]
    | none => []
  let last :=
    if tests then
      [s!"Write comprehensive tests in {folder}/tests/", page, s!"Run tests: pytest {folder}/tests/ -v"]
    else [page, s!"Add tests later with: make tests {words}"]
  [ s!"Update {folder}/OWNERS with your GitHub username",
    s!"Implement the logic in {folder}/{d.type}.py",
    s!"Update {folder}/metadata.yaml with correct dependencies and tags" ] ++ group ++ last

def refuse (lines : List String) : Run Unit := do
  Run.printAll lines
  throw (.exit 1)

def checkNames : Run Unit := do
  let rules : Except Fault Unit := do
    checkName p.draft.name
    checkCategory p.draft.category
    match p.group? with
    | some s => checkSubcategory s
    | none => pure ()
  match rules with
  | .ok _ => pure ()
  | .error e => refuse ["Error: " ++ e.message]

def checkCategoryExists : Run Unit := do
  let d := p.draft
  let existing ← existingCategories d.type
  if !existing.isEmpty && !existing.contains d.category then
    let all := Text.join ", " existing
    refuse
      [ s!"Error: Category '{d.category}' does not exist for {d.type}s.",
        s!"Existing categories: {all}",
        "\nTo create the category directory, you can:",
        s!"  mkdir -p {d.type}s/{d.category}",
        s!"\nOr choose from existing categories: {all}" ]

def makeTests : Run Unit := do
  let folder := (← createTests p).text
  Run.print s!"✅ Test files created successfully at: {folder}"
  Run.printAll
    [ "", "Next steps:", s!"1. Implement test logic in {folder}/",
      s!"2. Run tests: pytest {folder}/ -v", "            " ]

def makeAsset (tests shared : Bool) : Run Unit := do
  if ← Run.exists? p.folder then refuse [s!"Error: Directory '{p.folder.text}' already exists."]
  let folder ← create p tests shared
  Run.print s!"✅ {Text.titleCase p.draft.type} skeleton created successfully at: {folder.text}"
  Run.printAll (["", "Next steps:"] ++ numbered 1 (nextSteps p tests))

structure Request where
  place : Place
  noTests : Bool := false
  testsOnly : Bool := false
  shared : Bool := false
deriving DecidableEq, Repr, Inhabited

def skeletonArguments : List Argument :=
  [ { Argument.needed "--type" with choices := ["component", "pipeline"] },
    .needed "--category", .option "--subcategory", .needed "--name",
    .switch "--no-tests", .switch "--tests-only", .switch "--create-shared" ]

namespace Request

def read (words : List String) : Run Request := do
  let args ← CommandLine.read skeletonArguments words
  pure
    { place :=
        { draft := { type := args.textOf "--type" "", category := args.textOf "--category" ""
                     name := args.textOf "--name" "" }
          subcategory := args.last? "--subcategory" }
      noTests := args.has "--no-tests"
      testsOnly := args.has "--tests-only"
      shared := args.has "--create-shared" }

def check (r : Request) : Run Unit := do
  checkNames r.place
  if r.shared && r.place.group?.isNone then
    refuse ["Error: --create-shared requires --subcategory to be specified"]
  if !r.testsOnly then checkCategoryExists r.place
  if r.noTests && r.testsOnly then
    refuse ["Error: --no-tests and --tests-only cannot be used together"]

def carryOut (r : Request) : Run Unit :=
  if r.testsOnly then makeTests r.place else makeAsset r.place (!r.noTests) r.shared

end Request

def command (words : List String) : Run Unit := do
  let r ← Request.read words
  r.check
  match ← Run.attempt r.carryOut with
  | .ok _ => pure ()
  | .error (.exit n) => throw (.exit n)
  | .error e => refuse [e.titled "Error creating skeleton"]

end AssetCatalog.Skeleton
