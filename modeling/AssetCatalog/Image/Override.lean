import AssetCatalog.Arguments
import AssetCatalog.Asset.Decorator
import AssetCatalog.Image.Reference

/-! Putting another tag in place of `main` in the base images that decorators name. -/

namespace AssetCatalog.Image

open Asset Source

def comesBefore (a b : ImageLocation) : Bool :=
  let p := a.span.start
  let q := b.span.start
  p.line < q.line || (p.line = q.line && p.column ≤ q.column)

def quoteAt (line : List Char) (column : Nat) : Option (List Char) :=
  match line.drop column with
  | a :: b :: c :: _ => some (if b = a && c = a then [a, a, a] else [a])
  | a :: _ => some [a]
  | [] => none

def withTag (image tag : String) : String :=
  match Text.cutLast? ':' image with
  | some (name, _) => name ++ ":" ++ tag
  | none => image ++ ":" ++ tag

def replaceAt (p : Path) (tag : String) (lines : List (List Char)) (l : ImageLocation) :
    Except Fault (List (List Char)) := do
  if l.span.start.line ≠ l.span.stop.line then
    throw (.invalid s!"Multi-line base_image values are not supported in {p.text}")
  let index := l.span.start.line - 1
  match lines.drop index with
  | [] => throw .noIndex
  | line :: rest =>
    match quoteAt line l.span.start.column with
    | none => throw .noIndex
    | some quote =>
      let changed := line.take l.span.start.column ++ quote ++ (withTag l.image tag).toList ++ quote ++
        line.drop l.span.stop.column
      pure (lines.take index ++ changed :: rest)

/-- Puts the tag in all places, from the last one to the first: what stands in front is not moved. -/
def splice (p : Path) (tag : String) (lines : List (List Char)) (ls : List ImageLocation) :
    Except Fault (List (List Char)) :=
  (ls.mergeSort comesBefore).reverse.foldlM (replaceAt p tag) lines

/-- Whether an image is of the family and has the tag `main`. -/
def takesTag (family image : String) : Bool :=
  Text.startsWith image (family ++ "-") && Text.endsWith image ":main"

def overrideText (p : Path) (tag family text : String) : Except Fault (Option String) := do
  checkTag tag
  let body ← Stmt.parse text
  let found ← imageLocations p body
  let chosen := found.filter fun l => takesTag family l.image
  if chosen.isEmpty then pure none
  else
    let lines ← splice p tag (Text.lineList text.toList) chosen
    pure (some (String.ofList lines.flatten))

/-- Replaces the tags in a file; a trial run only says what it would write. -/
def overrideFile (p : Path) (tag family : String) (trial : Bool) : Run (Option String) := do
  Run.ofExcept (checkTag tag)
  let text ← Run.readText p
  match ← Run.ofExcept (overrideText p tag family text) with
  | none => pure none
  | some changed =>
    if !trial then Run.writeText p changed
    pure (some changed)

/-- The Python files below some directories; a directory that is not there has none. -/
def sourceFiles (directories : List String) : Run (List Path) := do
  let found ← directories.mapM fun d => do
    let p := Path.ofText d
    if ← Run.exists? p then Run.search p (Text.endsWith · ".py") else pure []
  pure found.flatten

def overrideShown (tag family : String) (trial verbose : Bool) (file : Path) : Run Bool := do
  let done := (← overrideFile file tag family trial).isSome
  if done && verbose then
    let action := if trial then "Would update" else "Updating"
    Run.print s!"{action}: {file.text}"
  pure done

def overrideAll (directories : List String) (tag family : String) (trial verbose : Bool) :
    Run (List String) := do
  let files ← sourceFiles directories
  let changed ← files.filterM (overrideShown tag family trial verbose)
  pure (changed.map Path.text)

def overrideCommand (words : List String) : Run Int := do
  let args ← CommandLine.read
    [ .positional "container_tag", .positional "image_prefix",
      { Argument.needed "--directories" with arity := .oneOrMore } ] words
  let tag := args.textOf "container_tag" ""
  Run.print s!"Overriding base_image references from :main to :{tag}"
  let done ← Run.attempt
    (overrideAll (args.wordsOf "--directories") tag (args.textOf "image_prefix" "") false true)
  match done with
  | .ok _ => pure 0
  | .error e =>
    match e with
    | .noFile m =>
      let m := m.getD ""
      Run.printError s!"Error: File not found: {m}"
    | e =>
      if e.isInvalid then Run.printError s!"Error: Invalid value: {e.message}"
      else Run.printError "Unexpected error"
    pure 1

end AssetCatalog.Image
