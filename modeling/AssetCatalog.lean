import AssetCatalog.Generation.Pipeline
import AssetCatalog.Generation.LocalRun
import AssetCatalog.Sentences
import AssetCatalog.Main
import AssetCatalog.Proofs.DependencyVersions
import AssetCatalog.Proofs.CheckPages
import AssetCatalog.Proofs.GateOutcome
import AssetCatalog.Proofs.SkeletonMetadata
import AssetCatalog.Proofs.CompileFilters
import AssetCatalog.Proofs.ImageReport
import AssetCatalog.Proofs.WheelContents
import AssetCatalog.Proofs.FreshnessScan
import AssetCatalog.Proofs.ValidationRuns
import AssetCatalog.Proofs.SkeletonFiles
import AssetCatalog.Proofs.GenerationRefusals
import AssetCatalog.Proofs.ReadmeFolders
import AssetCatalog.Proofs.CustomSection
import AssetCatalog.Proofs.InputTable
import AssetCatalog.Proofs.ImportExceptions
import AssetCatalog.Proofs.ImportSpellings
import AssetCatalog.Proofs.IndexOrder
import AssetCatalog.Proofs.TestFolders
import AssetCatalog.Proofs.ModuleNames
import AssetCatalog.Proofs.OverrideTrials
import AssetCatalog.Proofs.Detection
import AssetCatalog.Proofs.ExportPlaces
import AssetCatalog.Proofs.SkeletonPlaces
import AssetCatalog.Proofs.ImageSplices
import AssetCatalog.Proofs.Titles
