import AssetCatalog.Text.Basic

/-! Paths: a root, if any, and the names below it. Empty names and `.` are dropped; `..` stays. -/

namespace AssetCatalog

/-- A path: `root` is empty, `/` or `//`. -/
structure Path where
  root : String := ""
  names : List String := []
deriving DecidableEq, Repr, Inhabited

namespace Path

variable (p : Path)

def isName (s : String) : Bool := s ≠ "" && s ≠ "."

def ofText (s : String) : Path :=
  let slashes := (s.toList.takeWhile (· = '/')).length
  let root := if slashes = 0 then "" else if slashes = 2 then "//" else "/"
  { root, names := (Text.split "/" s).filter isName }

def text : String :=
  if p.root = "" && p.names.isEmpty then "." else p.root ++ Text.join "/" p.names

def isAbsolute : Bool := p.root ≠ ""

/-- `q` seen from `p`: `q` itself if it starts at the root. -/
def join (p q : Path) : Path :=
  if q.isAbsolute then q else { p with names := p.names ++ q.names }

def below (s : String) : Path := p.join (ofText s)

def name : String := p.names.getLast?.getD ""

def parent : Path := { p with names := p.names.dropLast }

def parts : List String := if p.root = "" then p.names else p.root :: p.names

/-- The last name without and with what follows its last point; a point at either end does not
count. -/
def splitName (name : String) : String × String :=
  match Text.cutLast? '.' name with
  | some (stem, suffix) =>
    if stem = "" || suffix = "" then (name, "") else (stem, "." ++ suffix)
  | none => (name, "")

def stem : String := (splitName p.name).1

def suffix : String := (splitName p.name).2

def withName? (name : String) : Option Path :=
  if p.names.isEmpty then none else some { p with names := p.names.dropLast ++ [name] }

def withoutSuffix? : Option Path := p.withName? p.stem

def dropNames : List String → List String → Option (List String)
  | [], rest => some rest
  | a :: as, b :: bs => if a = b then dropNames as bs else none
  | _ :: _, [] => none

def relativeTo? (p base : Path) : Option Path :=
  if p.root = base.root then
    (dropNames base.names p.names).map fun names => { names }
  else none

def isWithin (p base : Path) : Bool := (p.relativeTo? base).isSome

def normalNames (done : List String) : List String → List String
  | [] => done
  | ".." :: rest => normalNames done.dropLast rest
  | n :: rest => normalNames (done ++ [n]) rest

def resolve (p base : Path) : Path :=
  { root := "/", names := normalNames [] (base.join p).names }

def namesLe : List String → List String → Bool
  | [], _ => true
  | _ :: _, [] => false
  | a :: as, b :: bs => if a = b then namesLe as bs else a < b

def le (p q : Path) : Bool := namesLe p.parts q.parts

def sort (ps : List Path) : List Path := ps.mergeSort le

def sortByText (ps : List Path) : List Path := ps.mergeSort fun p q => Text.le p.text q.text

end Path

end AssetCatalog
