import AssetCatalog.Run

/-! Gathering of files and folders that belong to assets, below the places where to look. -/

namespace AssetCatalog

structure Gathering where
  found : List Path := []
  warnings : List String := []
deriving Inhabited

namespace Gathering

def belongs (relative : Path) : Bool :=
  match relative.parts with
  | first :: _ => first = "components" || first = "pipelines"
  | [] => false

def outsideWarning (repository p : Path) : String :=
  s!"Unable to determine relative path for {p.text} relative to repo root {repository.text}. " ++
    "Skipping."

def noteOutside (repository : Path) (g : Gathering) (p : Path) : Gathering :=
  if p.isWithin repository then g
  else { g with warnings := g.warnings ++ [outsideWarning repository p] }

def isMember (repository p : Path) : Bool := ((p.relativeTo? repository).map belongs).getD false

def add (repository : Path) (g : Gathering) (p : Path) : Gathering :=
  if isMember repository p && !g.found.contains p then { g with found := g.found ++ [p] } else g

def searchRoot (t : Tree) (target : Path) : Path :=
  if t.isFolder target.names then target else target.parent

def named (t : Tree) (root : Path) (name : String) : List Path :=
  let found := (t.allBelow root.names).filter fun k => k.getLast? = some name
  found.map fun k => { root with names := root.names ++ k }

end Gathering

end AssetCatalog
