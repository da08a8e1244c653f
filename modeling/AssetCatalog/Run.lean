import AssetCatalog.Tree
import AssetCatalog.Value.Basic

/-! Runs: operations that see their surroundings, change a tree of files, print, log, and use tools, whose
replies are part of the surroundings. -/

namespace AssetCatalog

inductive Level where
  | debug
  | info
  | warning
  | error
deriving DecidableEq, Repr, Inhabited

structure LogEntry where
  level : Level
  message : String
deriving DecidableEq, Repr, Inhabited

structure Reply where
  output : String := ""
  errors : String := ""
  status : Int := 0
deriving DecidableEq, Repr, Inhabited

structure Member where
  name : String
  componentSpec : Bool := false
  pipelineSpec : Bool := false
  pipelineFunction : Bool := false
  wrapped : Option Bool := none
  callable : Bool := true
  absent : Bool := false
  graph : Bool := false
  compiled : String := "root: \x7b\x7d\n"
  compileError : Option String := none
deriving DecidableEq, Repr, Inhabited

inductive Loaded where
  | members (ms : List Member)
  | broken (message : String)
deriving DecidableEq, Repr, Inhabited

structure Site where
  home : Path
  repository : Path
  installation : Path
  scratch : Path
  now : Moment
  environment : List (String × String) := []
  modules : List (String × Loaded) := []
  missing : List (String × String) := []
  searchPath : String := "[]"
  compilerPresent : Bool := true
  testStatus : Int := 0

structure Call where
  name : String
  positional : List Value := []
  named : List (String × Value) := []
deriving Inhabited

structure World where
  tree : Tree := {}
  output : String := ""
  errors : String := ""
  log : List LogEntry := []
  replies : List Reply := []
  commands : List (List String) := []
  pauses : List Int := []
  testRuns : List (List String) := []
  calls : List Call := []
  metrics : List (String × Value) := []
deriving Inhabited

/-- An operation in its surroundings; a failure keeps what was done before it. -/
abbrev Run := ReaderT Site (ExceptT Fault (StateM World))

namespace Run

variable (p : Path) (s : String)

def ofExcept {α : Type} (x : Except Fault α) : Run α :=
  match x with
  | .ok a => pure a
  | .error e => throw e

def attempt {α : Type} (x : Run α) : Run (Except Fault α) :=
  tryCatch (Except.ok <$> x) fun e => pure (.error e)

def write : Run Unit := modify fun w => { w with output := w.output ++ s }

def print : Run Unit := write (s ++ "\n")

def printAll (ls : List String) : Run Unit := ls.forM print

def printError : Run Unit :=
  modify fun w => { w with errors := w.errors ++ s ++ "\n" }

def log (level : Level) (message : String) : Run Unit :=
  modify fun w => { w with log := w.log ++ [⟨level, message⟩] }

def record (c : Call) : Run Unit := modify fun w => { w with calls := w.calls ++ [c] }

def measure (name : String) (v : Value) : Run Unit :=
  modify fun w => { w with metrics := w.metrics ++ [(name, v)] }

def locate : Run Location := do
  let site ← read
  pure (site.home.join p).names

def resolve : Run Path := do
  let site ← read
  pure (p.resolve site.home)

def isFile : Run Bool := do
  let l ← locate p
  pure ((← get).tree.isFile l)

def isFolder : Run Bool := do
  let l ← locate p
  pure ((← get).tree.isFolder l)

def exists? : Run Bool := do
  let l ← locate p
  pure ((← get).tree.exists? l)

/-- Whether the text of a path leads to anything; one that ends in a slash has to lead to a
folder. -/
def leads (raw : String) : Run Bool := do
  let p := Path.ofText raw
  if raw = "" then pure false
  else if Text.endsWith raw "/" || Text.endsWith raw "/." then isFolder p
  else exists? p

def content : Run Content := do
  let l ← locate p
  ofExcept ((← get).tree.read l)

/-- The text of a file, with every line end written `\n`. -/
def readText : Run String := do
  let c ← content p
  ofExcept c.lineText

def writeText : Run Unit := do
  let l ← locate p
  let t ← ofExcept ((← get).tree.write l (.text s))
  modify fun w => { w with tree := t }

def appendText : Run Unit := do
  let l ← locate p
  let before ← match (← get).tree.read l with
    | .ok c => pure c
    | .error (.noFile _) => pure (.text "")
    | .error e => throw e
  let t ← ofExcept ((← get).tree.write l (.ofBytes (before.toBytes ++ s.toUTF8.toList)))
  modify fun w => { w with tree := t }

def makeFolders : Run Unit := do
  let l ← locate p
  let t ← ofExcept ((← get).tree.makeFolders [] l)
  modify fun w => { w with tree := t }

def folderItems : Run (List Path) := do
  let l ← locate p
  let names ← ofExcept ((← get).tree.namesIn l)
  pure (Path.sortByText (names.map fun n => { p with names := p.names ++ [n] }))

def search (accept : String → Bool) : Run (List Path) := do
  let l ← locate p
  let found := ((← get).tree.allBelow l).filter fun k => accept (k.getLast?.getD "")
  pure (Path.sortByText (found.map fun k => { p with names := p.names ++ k }))

def importModule (name : String) : Run (List Member) := do
  match (← read).modules.lookup name with
  | some (.members ms) => pure ms
  | some (.broken m) => throw (.load m)
  | none => pure []

def loadModule : Run (List Member) := do
  let site ← read
  let full ← resolve p
  importModule ((full.relativeTo? site.home).getD full).text

def command (words : List String) : Run Reply := do
  let w ← get
  set { w with commands := w.commands ++ [words], replies := w.replies.tail }
  pure (w.replies.head?.getD {})

def commandOk (words : List String) : Run Reply := do
  let r ← command words
  if r.status = 0 then pure r else throw (.command words r.status)

def pause (seconds : Int) : Run Unit := modify fun w => { w with pauses := w.pauses ++ [seconds] }

def setting? (name : String) : Run (Option String) := do
  let site ← read
  pure (site.environment.lookup name)

end Run

end AssetCatalog
