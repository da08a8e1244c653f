import AssetCatalog.Asset.Discovery

/-! The list of all assets with metadata, printed and handed on to later steps. -/

namespace AssetCatalog.Asset

def listCommand : Run Unit := do
  let components ← withMetadata "components" (Path.ofText ".")
  let pipelines ← withMetadata "pipelines" (Path.ofText ".")
  let all := components ++ pipelines
  let output := ((← Run.setting? "GITHUB_OUTPUT").getD "")
  if output ≠ "" then
    let line (name : String) (xs : List String) : String := name ++ "=" ++ Text.join " " xs ++ "\n"
    Run.appendText (Path.ofText output)
      (line "all-components" components ++ line "all-pipelines" pipelines ++ line "all-assets" all)
  if ((← Run.setting? "GITHUB_ACTIONS").getD "") = "" then
    Run.print s!"Components: {components.length}"
    components.forM fun c => Run.print s!"  - {c}"
    Run.print s!"\nPipelines: {pipelines.length}"
    pipelines.forM fun p => Run.print s!"  - {p}"
    Run.print s!"\nTotal: {all.length}"

end AssetCatalog.Asset
