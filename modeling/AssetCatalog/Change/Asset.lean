import AssetCatalog.Text.Basic

/-! To which asset a changed file belongs, by its path alone. -/

namespace AssetCatalog.Change

def reservedFolders : List String := ["tests", "shared"]

/-- The asset of a file below one of the two roots: its category and name, and between them the
subcategory, if a folder with a name of its own stands there. -/
def assetOfParts (root : String) : List String → Option String
  | top :: category :: second :: third :: rest =>
    if top = root && category ≠ "" && second ≠ "" then
      let direct := s!"{root}/{category}/{second}"
      if third ≠ "" && !rest.isEmpty && !reservedFolders.contains third then
        some (direct ++ "/" ++ third)
      else some direct
    else none
  | _ => none

def assetOf (root path : String) : Option String := assetOfParts root (Text.split "/" path)

def assetsOf (root : String) (files : List String) : List String :=
  Text.sort (Text.distinct (files.filterMap (assetOf root)))

end AssetCatalog.Change
