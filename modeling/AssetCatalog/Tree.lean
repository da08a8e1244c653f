import AssetCatalog.Path
import AssetCatalog.Text.Utf8
import AssetCatalog.Fault

/-! A tree of files and folders, addressed by the names from its root. -/

namespace AssetCatalog

inductive Content where
  | text (s : String)
  | bytes (bs : List UInt8)
deriving DecidableEq, Repr, Inhabited

namespace Content

def ofBytes (bs : List UInt8) : Content :=
  match String.fromUTF8? ⟨bs.toArray⟩ with
  | some s => .text s
  | none => .bytes bs

def toBytes : Content → List UInt8
  | .text s => s.toUTF8.toList
  | .bytes bs => bs

def exactText : Content → Except Fault String
  | .text s => pure s
  | .bytes bs => throw (.notText (Text.utf8Complaint bs))

def lineText : Content → Except Fault String
  | .text s => pure (String.ofList (Text.unifyNewlines s.toList))
  | .bytes bs => throw (.notText (Text.utf8Complaint bs))

end Content

abbrev Location := List String

structure Tree where
  files : List (Location × Content) := []
  folders : List Location := [[]]
deriving Repr, Inhabited

inductive Entry where
  | file (content : Content)
  | folder
deriving Repr

namespace Tree

variable (t : Tree) (p : Location)

def entry? (at_ : Location) : Option Entry :=
  if t.folders.contains at_ then some .folder else (t.files.lookup at_).map .file

def follow (t : Tree) (done : Location) : Location → Except Fault Location
  | [] => pure done
  | n :: rest =>
    match t.entry? done with
    | some .folder => follow t (if n = ".." then done.dropLast else done ++ [n]) rest
    | some (.file _) => throw .notDirectory
    | none => throw (.noFile none)

def find : Except Fault Entry := do
  let l ← t.follow [] p
  match t.entry? l with
  | some e => pure e
  | none => throw (.noFile none)

def isFile : Bool :=
  match t.find p with
  | .ok (.file _) => true
  | _ => false

def isFolder : Bool :=
  match t.find p with
  | .ok .folder => true
  | _ => false

def exists? : Bool := t.isFile p || t.isFolder p

def read : Except Fault Content := do
  match ← t.find p with
  | .file c => pure c
  | .folder => throw .isDirectory

def putFile (at_ : Location) (c : Content) :
    List (Location × Content) → List (Location × Content)
  | [] => [(at_, c)]
  | (l, d) :: fs => if l = at_ then (l, c) :: fs else (l, d) :: putFile at_ c fs

def write (c : Content) : Except Fault Tree := do
  let l ← t.follow [] p
  match t.entry? l with
  | some .folder => throw .isDirectory
  | _ => pure { t with files := putFile l c t.files }

def makeFolders (t : Tree) (done : Location) : Location → Except Fault Tree
  | [] => pure t
  | n :: rest =>
    let l := if n = ".." then done.dropLast else done ++ [n]
    match t.entry? l with
    | some .folder => makeFolders t l rest
    | some (.file _) => throw (if rest.isEmpty then .fileExists else .notDirectory)
    | none => makeFolders { t with folders := t.folders ++ [l] } l rest

def remove (at_ : Location) : Tree :=
  { files := t.files.filter fun f => !at_.isPrefixOf f.1
    folders := t.folders.filter fun l => !at_.isPrefixOf l }

def namesIn : Except Fault (List String) := do
  let l ← t.follow [] p
  match t.entry? l with
  | none => throw (.noFile none)
  | some (.file _) => throw .notDirectory
  | some .folder =>
    let inside := ((t.files.map (·.1)) ++ t.folders).filter fun k => k ≠ [] && k.dropLast = l
    pure (Text.sort (Text.distinct (inside.map fun k => k.getLast?.getD "")))

def allBelow : List Location :=
  match t.follow [] p with
  | .ok l =>
    match t.entry? l with
    | some .folder =>
      let inside := ((t.files.map (·.1)) ++ t.folders).filter fun k => l.isPrefixOf k && k ≠ l
      inside.map fun k => k.drop l.length
    | _ => []
  | .error _ => []

end Tree

end AssetCatalog
