import AssetCatalog.Asset.Listing
import AssetCatalog.Change.Detection
import AssetCatalog.Checks.Gate
import AssetCatalog.Compile.Check
import AssetCatalog.Compile.Entrypoint
import AssetCatalog.Example
import AssetCatalog.Freshness.Report
import AssetCatalog.Image.Override
import AssetCatalog.Image.Report
import AssetCatalog.Import.Guard
import AssetCatalog.Package.Loading
import AssetCatalog.Package.Sync
import AssetCatalog.Readme.Writer
import AssetCatalog.Skeleton.Create
import AssetCatalog.TestRun
import AssetCatalog.Wheel.Validation

/-! The programs of the library by name. -/

namespace AssetCatalog

abbrev Program := List String → Run (Option Int)

namespace Program

def ofStatus (f : List String → Run Int) : Program := fun words => some <$> f words

def ofUnit (f : List String → Run Unit) : Program := fun words => do
  f words
  pure none

def all : List (String × Program) :=
  [ ("readme", ofUnit Readme.updateCommand), ("skeleton", ofUnit Skeleton.command),
    ("metadata", ofUnit Metadata.validateCommand), ("freshness", ofUnit Freshness.command),
    ("list", ofUnit fun _ => Asset.listCommand), ("images", ofStatus Image.reportCommand),
    ("tags", ofStatus Image.tagCheckCommand), ("override", ofStatus Image.overrideCommand),
    ("compile", ofStatus Compile.checkCommand), ("packages", ofStatus Compile.packagesCommand),
    ("examples", ofStatus Example.command), ("tests", ofStatus TestRun.command),
    ("sync", ofStatus fun _ => Package.syncCommand),
    ("entries", ofStatus Package.checkManifestCommand), ("imports", ofStatus Import.command),
    ("changes", ofStatus Change.command), ("checks", ofStatus Checks.command),
    ("wheel", ofUnit Wheel.command), ("distribution", ofStatus Package.tryCommand) ]

def named? (name : String) : Option Program := all.lookup name

end Program

end AssetCatalog
