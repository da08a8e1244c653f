import AssetCatalog.Text.Basic

/-! Where a generation is exported to: a folder for the flow, and in it one for the time. -/

namespace AssetCatalog.Generation

def baseName (path : String) : String :=
  match Text.cutLast? '/' path with
  | some (_, name) => name
  | none => path

def withoutExtension (name : String) : String :=
  match Text.cutLast? '.' name with
  | some (stem, _) => if stem.toList.all (· = '.') then name else stem
  | none => name

def exportName (flowId flowPath : String) : String :=
  if flowPath ≠ "" then
    let name := withoutExtension (baseName flowPath)
    if name = "" then "custom" else name
  else if flowId ≠ "" then Text.replace "\\" "_" (Text.replace "/" "_" flowId)
  else "custom"

def joinText (base path : String) : String :=
  if Text.startsWith path "/" then path
  else if base = "" || Text.endsWith base "/" then base ++ path
  else base ++ "/" ++ path

def exportFolder (base flowId flowPath time : String) : String :=
  joinText (joinText base (exportName flowId flowPath)) time

def exportFile (folder : String) : String := joinText folder "generated.jsonl"

end AssetCatalog.Generation
