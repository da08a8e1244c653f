import AssetCatalog.Package.Manifest

/-! Bringing the list of packages in the text of the manifest up to date: the list after the header of
its table, or else the last one that starts a line. -/

namespace AssetCatalog.Package

def tableHeader : List Char := "[tool.setuptools]".toList

def listLength? (cs : List Char) : Option Nat := do
  let rest ← afterWord cs
  match rest.dropWhile Text.isBlank with
  | '=' :: rest =>
    match rest.dropWhile Text.isBlank with
    | '[' :: rest =>
      let (_, after) ← Text.cutList? [']'] rest
      some (cs.length - after.length)
    | _ => none
  | _ => none
where
  afterWord (cs : List Char) : Option (List Char) :=
    if "packages".toList.isPrefixOf cs then some (cs.drop 8) else none

/-- What follows each line end among the first characters of a text that satisfy `p`, from the last to
the first. -/
def lineStarts (p : Char → Bool) : List Char → List (List Char)
  | [] => []
  | c :: cs => if p c then lineStarts p cs ++ (if c = '\n' then [cs] else []) else []

/-- The list that belongs to a header, given what follows the line of the header: what remains of
the text from the list on. -/
def listAfter (cs : List Char) : Option (List Char) :=
  if (listLength? cs).isSome then some cs
  else if cs.head? = some '[' then none
  else (lineStarts (fun _ => true) cs).find? fun l => (listLength? l).isSome

def listFrom : List Char → Option (List Char)
  | [] => none
  | c :: cs =>
    if tableHeader.isPrefixOf (c :: cs) then
      match (lineStarts Text.isBlank ((c :: cs).drop tableHeader.length)).findSome? listAfter with
      | some l => some l
      | none => listFrom cs
    else listFrom cs

def listText (names : List String) : String :=
  "packages = [\n" ++ Text.join ",\n" (names.map fun n => s!"    \"{n}\"") ++ ",\n]"

def replaceList (text : String) (names : List String) : Option String := do
  let cs := text.toList
  let rest ← listFrom cs
  let n ← listLength? rest
  some (String.ofList (cs.take (cs.length - rest.length) ++ (listText names).toList ++ rest.drop n))

def sync (root : Path) : Run Unit := do
  let p := root.below manifestName
  let text ← Run.readText p
  let current ← readDeclared p
  let found := distributed (← get).tree (← Run.locate root)
  let ordered ← Run.ofExcept (Value.sorted current)
  if Value.list ordered == Value.list (found.map .text) then
    Run.print "pyproject.toml packages already in sync."
  else
    match replaceList text found with
    | none => throw (.failed
        "Could not find 'packages = [...]' under [tool.setuptools] in pyproject.toml")
    | some updated =>
      Run.writeText p updated
      Run.print s!"Synced {found.length} packages in pyproject.toml"

def syncCommand : Run Int := do
  match ← Run.attempt (sync (← read).repository) with
  | .ok _ => pure 0
  | .error e =>
    Run.printError (e.titled "Error")
    pure 1

end AssetCatalog.Package
