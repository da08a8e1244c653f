import AssetCatalog.Program

/-! The command line: a program and its arguments. What the program changes below the current folder is
written back when it ends; tools outside the library give empty answers. -/

namespace AssetCatalog.Main

def diskText (l : Location) : String := "/" ++ Text.join "/" l

def foldersAbove (l : Location) : List Location :=
  (List.range l.length).map fun n => l.take n

partial def readBelow (l : Location) (t : Tree) : IO Tree := do
  let t := { t with folders := t.folders ++ [l] }
  let here ← IO.FS.realPath (diskText l)
  let entries ← here.readDir
  entries.foldlM (fun t e => do
    if e.fileName = ".git" then pure t
    else
      let below := l ++ [e.fileName]
      if ← e.path.isDir then readBelow below t
      else
        let bytes ← IO.FS.readBinFile e.path
        pure { t with files := t.files ++ [(below, Content.ofBytes bytes.toList)] }) t

def writeChanges (old new : Tree) : IO Unit := do
  for (l, c) in new.files do
    if old.files.lookup l ≠ some c then
      IO.FS.createDirAll (diskText l.dropLast)
      IO.FS.writeBinFile (diskText l) ⟨c.toBytes.toArray⟩

def present : IO Moment := do
  let (_, file) ← IO.FS.createTempFile
  let data ← file.metadata
  IO.FS.removeFile file
  pure (Moment.ofSeconds data.modified.sec.toNat)

def variableNames : List String := ["GITHUB_OUTPUT", "GITHUB_ACTIONS", "GITHUB_STEP_SUMMARY"]

def surroundings : IO Site := do
  let here ← IO.currentDir
  let home := Path.ofText here.toString
  let environment ← variableNames.filterMapM fun n => do
    pure ((← IO.getEnv n).map fun v => (n, v))
  pure { home, repository := home, installation := home, scratch := Path.ofText "/tmp"
         now := ← present, environment }

def levelText : Level → String
  | .debug => "DEBUG"
  | .info => "INFO"
  | .warning => "WARNING"
  | .error => "ERROR"

def run (program : Program) (words : List String) : IO UInt32 := do
  let site ← surroundings
  let tree ← readBelow site.home.names { folders := foldersAbove site.home.names }
  let (result, w) := (program words).run site |>.run |>.run { tree }
  IO.print w.output
  IO.eprint w.errors
  for e in w.log do
    if e.level ≠ .debug then IO.eprintln s!"{levelText e.level}: {e.message}"
  writeChanges tree w.tree
  match result with
  | .ok n => pure (n.getD 0).toNat.toUInt32
  | .error (.exit n) => pure n.toNat.toUInt32
  | .error (.usage m) =>
    IO.eprintln s!"error: {m}"
    pure 2
  | .error e =>
    IO.eprintln s!"error: {e.message}"
    pure 1

end AssetCatalog.Main

def main (words : List String) : IO UInt32 :=
  match words with
  | name :: rest =>
    match AssetCatalog.Program.named? name with
    | some program => AssetCatalog.Main.run program rest
    | none => do
      IO.eprintln s!"error: unknown program {name}"
      pure 2
  | [] => do
    IO.eprintln ("programs: " ++ ", ".intercalate (AssetCatalog.Program.all.map (·.1)))
    pure 2
