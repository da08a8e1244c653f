import AssetCatalog.Readme.Writer
import AssetCatalog.Proofs.AssetPlaces

/-!
# The folders above an asset

They are told by the name of the third folder above it.
-/

namespace AssetCatalog.Readme

open Asset Path

open AssetCatalog.Path (IsStep)

variable {site : Site} {root : List String}

def folderIn (root : List String) (isComponent : Bool) (names : List String) : Path :=
  ⟨"/", root ++ folderOf (typeOf isComponent) :: names⟩

def foldersOf (root : List String) (isComponent : Bool) (a : Asset) : Path × Option Path :=
  (folderIn root isComponent [a.category],
    a.subcategory.map fun s => folderIn root isComponent [a.category, s])

/-- A repository whose own name is that of a folder of assets. -/
def IsNamedLikeAssets (root : List String) : Prop :=
  root.getLast?.getD "" ∈ ["components", "pipelines"]
deriving Decidable

lemma foldersAbove_eq (b : Bool) (a : Asset) : foldersAbove (folderIn root b a.inside) =
    if a.subcategory = none ∧ IsNamedLikeAssets root then
      (folderIn root b [], some (folderIn root b [a.category]))
    else foldersOf root b a := by
  obtain ⟨path, category, subcategory, name⟩ := a
  cases subcategory with
  | none =>
    simp [foldersAbove, folderIn, foldersOf, IsNamedLikeAssets, Asset.inside, Path.parent, Path.name]
  | some s =>
    cases b <;> simp [foldersAbove, folderIn, foldersOf, Asset.inside, Path.parent, Path.name, typeOf,
      Asset.folderOf]

lemma ofFile_folderIn (hrepository : site.repository = ⟨"/", root⟩) {a : Asset}
    (hdots : ".." ∉ root ++ a.inside) (b : Bool) (w : World) :
    ofFile (typeOf b) ((folderIn root b a.inside).below (sourceName b)) site w =
      (.ok { a with path := (folderIn root b a.inside).below (sourceName b) }, w) := by
  obtain ⟨hfolder, hfile⟩ := @Asset.isStep_folderOf (typeOf b) (by cases b <;> decide)
  obtain ⟨hroot, hinside⟩ := not_or.mp (List.mem_append.not.mp hdots)
  have htop : (ofText (folderOf (typeOf b))).resolve site.repository =
      ⟨"/", root ++ [folderOf (typeOf b)]⟩ := by
    have hnames : ".." ∉ root ++ [folderOf (typeOf b)] := by
      simpa [hroot] using hfolder.2.2.symm
    rw [hrepository, ofText_of_isStep hfolder, resolve]
    simp [join, isAbsolute, normalNames_of_notMem hnames]
  have hplace : (folderIn root b a.inside).below (sourceName b) =
      ⟨"/", root ++ [folderOf (typeOf b)] ++ (a.inside ++ [typeOf b ++ ".py"])⟩ := by
    rw [sourceName, below_eq_item hfile]
    simp [folderIn, item]
  rw [hplace]
  apply ofFile_apply htop
  simp [hroot, hinside, hfolder.2.2.symm, hfile.2.2.symm]

/-- For every asset of a repository, what is kept up to date with its page are the indexes of its own
category and subcategory, if and only if it has a subcategory or the repository does not have the name
of a folder of assets. -/
theorem target_folders_iff (hrepository : site.repository = ⟨"/", root⟩) {a : Asset}
    (hdots : ".." ∉ root ++ a.inside) (b : Bool) (output : Option Path) (w : World) :
    Asset.ofFile (typeOf b) ((folderIn root b a.inside).below (sourceName b)) site w =
        (.ok { a with path := (folderIn root b a.inside).below (sourceName b) }, w) ∧
      ∃ t, Target.of (if b then some (folderIn root b a.inside) else none)
          (if b then none else some (folderIn root b a.inside)) output site w = (.ok t, w) ∧
        ((t.category, t.subcategory) = foldersOf root b a ↔
          a.subcategory.isSome ∨ ¬IsNamedLikeAssets root) := by
  refine ⟨ofFile_folderIn hrepository hdots b w, ?_⟩
  have hfolders : (foldersAbove (folderIn root b a.inside) = foldersOf root b a) ↔
      a.subcategory.isSome ∨ ¬IsNamedLikeAssets root := by
    rw [foldersAbove_eq]
    split
    · next h => simp [foldersOf, h.1, h.2]
    · next h => simpa [Option.isSome_iff_ne_none] using Classical.not_and_iff_not_or_not.mp h
  cases b with
  | true => exact ⟨_, rfl, hfolders⟩
  | false => exact ⟨_, rfl, hfolders⟩

def directAsset : Asset := { path := ⟨"", []⟩, category := "data", name := "loader" }

/-- In a repository of another name, the folder of the category is found. -/
theorem target_folders_work : ".." ∉ ["work"] ++ directAsset.inside ∧
    ∃ t, Target.of (some ⟨"/", ["work", "components", "data", "loader"]⟩) none none
        { Run.rootSite with repository := ⟨"/", ["work"]⟩ } {} = (.ok t, {}) ∧
      (t.category, t.subcategory) = (⟨"/", ["work", "components", "data"]⟩, none) := by
  have hdots : ".." ∉ ["work"] ++ directAsset.inside := by decide
  have hrepository : { Run.rootSite with repository := ⟨"/", ["work"]⟩ }.repository =
      ⟨"/", ["work"]⟩ := rfl
  obtain ⟨-, t, ht, hfolders⟩ := target_folders_iff hrepository hdots true none {}
  exact ⟨hdots, t, ht, hfolders.mpr (.inr (by decide))⟩

/-- In a repository with the name `components`, the category is taken for a subcategory. -/
theorem target_folders_components :
    Asset.ofFile "component" ⟨"/", ["components", "components", "data", "loader", "component.py"]⟩
        { Run.rootSite with repository := ⟨"/", ["components"]⟩ } {} =
      (.ok { directAsset with
        path := ⟨"/", ["components", "components", "data", "loader", "component.py"]⟩ }, {}) ∧
    ∃ t, Target.of (some ⟨"/", ["components", "components", "data", "loader"]⟩) none none
        { Run.rootSite with repository := ⟨"/", ["components"]⟩ } {} = (.ok t, {}) ∧
      (t.category, t.subcategory) =
        (⟨"/", ["components", "components"]⟩, some ⟨"/", ["components", "components", "data"]⟩) :=
  ⟨rfl, _, rfl, rfl⟩

end AssetCatalog.Readme
