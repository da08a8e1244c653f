import AssetCatalog.Tree

/-! The packages of the catalogue: folders with an initial module. -/

namespace AssetCatalog.Package

variable (names : List String)

def rootName : String := "kfp_components"

def topFolders : List String := ["components", "pipelines"]

def initialModule : String := "__init__.py"

def starts : List (List String) :=
  (List.range names.length).map fun i => names.take (i + 1)

/-- The folders below a folder, by the names that lead to them, such that each folder on the way
satisfies `p`. -/
def chains (t : Tree) (root : Location) (p : List String → Bool) : List (List String) :=
  ((t.allBelow root).filter fun l => t.isFolder (root ++ l)).filter fun l => (starts l).all p

def qualified : String := Text.join "." (rootName :: names)

def isDistributed : Bool :=
  match names with
  | top :: rest =>
    topFolders.contains top && !rest.contains "tests" &&
      !((names.getLast?.map fun n => Text.endsWith n "__pycache__").getD false)
  | [] => false

/-- The packages of a distribution, in increasing order. Folders with a point in their names are
not looked into. -/
def distributed (t : Tree) (root : Location) : List String :=
  let found := chains t root fun l =>
    !((l.getLast?.map fun n => n.toList.contains '.').getD false) &&
      t.isFile (root ++ l ++ [initialModule])
  Text.sort (rootName :: (found.filter isDistributed).map qualified)

def expected (t : Tree) (root : Location) : List String :=
  let isPackage (l : List String) : Bool := t.exists? (root ++ l ++ [initialModule])
  let own := if isPackage [] then [rootName] else []
  let found := topFolders.flatMap fun top =>
    if isPackage [top] then
      let inner := chains t (root ++ [top]) fun l =>
        l.getLast? ≠ some "tests" && isPackage (top :: l)
      [top] :: inner.map (top :: ·)
    else []
  own ++ found.map qualified

end AssetCatalog.Package
