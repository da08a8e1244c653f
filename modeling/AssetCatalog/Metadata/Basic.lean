import AssetCatalog.Run
import AssetCatalog.Value.Access
import AssetCatalog.Yaml.Document

/-! Metadata files of assets: where they are, how they are read, and which assets they select. -/

namespace AssetCatalog.Metadata

def fileName : String := "metadata.yaml"

def loadYaml (p : Path) : Run Value := do
  let s ← Run.readText p
  Run.ofExcept (Yaml.load s)

def load (p : Path) : Run Value := do
  let v := (← loadYaml p).orElse (.map [])
  if v.isMap then pure v
  else throw (.invalid s!"Metadata at {p.text} must be a mapping.")

def wantsCompilation (flagless : Bool) (metadata : Value) : Except Fault Bool := do
  let ci := (← metadata.getOrNull "ci").orElse (.map [])
  if ← ci.mentions "compile_check" then
    let flag ← ci.need "compile_check"
    pure flag.truthy
  else pure flagless

end AssetCatalog.Metadata
