import AssetCatalog.Asset.Discovery
import AssetCatalog.Change.Asset
import AssetCatalog.Proofs.Tree

/-!
# The asset of a changed file

Changed files are given to assets by their paths alone. For a file in a folder of an asset right below
its category, this is not the asset that is found.
-/

namespace AssetCatalog

open Run List Ensures Text

variable {t : Tree} {kind file : String} {a : Asset}

namespace Asset

/-- What the place of a found asset is made of: names of the tree, and below a subcategory none that
is reserved there. -/
structure Placed (a : Asset) : Prop where
  category : IsPlainName a.category
  subcategory : ∀ s ∈ a.subcategory, IsPlainName s
  name : IsPlainName a.name
  unreserved : a.subcategory.isSome → a.name ∉ reservedNames

lemma openFolders_ensures (ht : t.PlainNames) (p : Path) :
    Ensures (fun w => w.tree = t) (openFolders p) fun qs => ∀ q ∈ qs, IsPlainName q.name := by
  apply Ensures.bind (folderItems_ensures ht p)
  intro items hitems
  apply Ensures.filterM
  intro q hq
  apply Ensures.bind (.isFolder q)
  intro b _
  exact .pure fun _ => hitems q hq

lemma layout_ensures (ht : t.PlainNames) (base : Path) (fileName : String) :
    Ensures (fun w => w.tree = t) (layout base fileName) fun found => ∀ a ∈ found, a.Placed := by
  have hflat {found : List (List Asset)} (h : ∀ as ∈ found, ∀ a ∈ as, a.Placed) :
      ∀ a ∈ found.flatten, a.Placed := by
    intro a ha
    obtain ⟨as, has, ha⟩ := mem_flatten.mp ha
    exact h as has a ha
  apply Ensures.bind (openFolders_ensures ht base)
  intro categories hcategories
  refine .bind (.mapM ?_) fun found hfound => .pure (hflat hfound)
  intro category hcategory
  apply Ensures.bind (openFolders_ensures ht category)
  intro items hitems
  refine .bind (.mapM ?_) fun found hfound => .pure (hflat hfound)
  intro item hitem
  apply Ensures.bind (exists? _)
  intro direct _
  cases direct with
  | true =>
    apply Ensures.pure
    intro a ha
    rw [mem_singleton.mp ha]
    exact ⟨hcategories category hcategory, by simp, hitems item hitem, by simp⟩
  | false =>
    apply Ensures.bind (openFolders_ensures ht item)
    intro inside hinside
    apply Ensures.bind (P := fun held => ∀ q ∈ held, IsPlainName q.name ∧ q.name ∉ reservedNames)
    · apply Ensures.filterM
      intro q hq
      obtain ⟨hq, hopen⟩ := mem_filter.mp hq
      apply mono (exists? _)
      intro _ _ _
      exact ⟨hinside q hq, by simpa using hopen⟩
    · intro held hheld
      apply Ensures.pure
      intro a ha
      obtain ⟨q, hq, rfl⟩ := mem_map.mp ha
      refine ⟨hcategories category hcategory, ?_, (hheld q hq).1, fun _ => (hheld q hq).2⟩
      rintro s ⟨⟩
      exact hitems item hitem

def folder (kind : String) (a : Asset) : String :=
  join "/" ([kind, a.category] ++ a.subcategory.toList ++ [a.name])

lemma withMetadata_ensures (ht : t.PlainNames) (kind : String) (base : Path) :
    Ensures (fun w => w.tree = t) (withMetadata kind base) fun found =>
      ∀ s ∈ found, ∃ a : Asset, a.Placed ∧ s = a.folder kind := by
  apply Ensures.bind (exists? _)
  intro there _
  cases there with
  | false => exact .pure (by simp)
  | true =>
    apply Ensures.bind (layout_ensures ht _ _)
    intro found hfound
    apply Ensures.pure
    intro s hs
    obtain ⟨a, ha, rfl⟩ := mem_map.mp hs
    exact ⟨a, hfound a ha, rfl⟩

lemma allWithMetadata_ensures (ht : t.PlainNames) (base : Path) :
    Ensures (fun w => w.tree = t) (allWithMetadata base) fun found =>
      ∀ s ∈ found, ∃ kind ∈ ["components", "pipelines"], ∃ a : Asset, a.Placed ∧ s = a.folder kind := by
  apply Ensures.bind (withMetadata_ensures ht "components" base)
  intro components hcomponents
  apply Ensures.bind (withMetadata_ensures ht "pipelines" base)
  intro pipelines hpipelines
  apply Ensures.pure
  intro s hs
  rcases mem_append.mp hs with hs | hs
  · exact ⟨"components", by simp, hcomponents s hs⟩
  · exact ⟨"pipelines", by simp, hpipelines s hs⟩

section

variable (hkind : kind ∈ ["components", "pipelines"]) (ha : a.Placed)
include hkind ha

lemma folder_pieces :
    ∀ p ∈ [kind, a.category] ++ a.subcategory.toList ++ [a.name], '/' ∉ p.toList := by
  intro p hp
  simp only [mem_append, mem_cons, not_mem_nil, or_false, Option.mem_toList] at hp
  rcases hp with ((rfl | rfl) | hp) | rfl
  · rcases mem_cons.mp hkind with rfl | hkind
    · decide
    · rw [mem_singleton.mp hkind]
      decide
  · exact ha.category.2
  · exact (ha.subcategory p hp).2
  · exact ha.name.2

lemma split_below_folder (rest : String) : split "/" (a.folder kind ++ "/" ++ rest) =
      [kind, a.category] ++ a.subcategory.toList ++ [a.name] ++ split "/" rest :=
  split_join_append '/' _ rest (by simp) (folder_pieces hkind ha)

lemma split_folder :
    split "/" (a.folder kind) = [kind, a.category] ++ a.subcategory.toList ++ [a.name] :=
  split_join '/' _ (by simp) (folder_pieces hkind ha)

end

end Asset

namespace Change

/-- The folder of an asset into which the path of a file goes, if that is a folder with a name of its
own: not the folder of the asset itself, and no reserved one. -/
def ownFolder (rest : String) : Option String :=
  match split "/" rest with
  | d :: _ :: _ => if d ≠ "" && !reservedFolders.contains d then some d else none
  | _ => none

def inSubcategory (folder : String) : Bool := (split "/" folder).length = 4

lemma assetsOf_single (root file : String) :
    assetsOf root [file] = (assetOf root file).toList := by
  cases h : assetOf root file with
  | none => simp [assetsOf, h, distinct, sort]
  | some a => simp [assetsOf, h, distinct, sort]

lemma join_three (a b c : String) : join "/" [a, b, c] = s!"{a}/{b}/{c}" := by
  rfl

lemma assetOf_direct {category name : String} (hcategory : category ≠ "")
    (hname : name ≠ "") {rest : String}
    (hfile : split "/" file = [kind, category, name] ++ split "/" rest) :
    assetOf kind file = some (match ownFolder rest with
      | some d => join "/" [kind, category, name] ++ "/" ++ d
      | none => join "/" [kind, category, name]) := by
  rw [assetOf, hfile, ownFolder, join_three]
  rcases hrest : split "/" rest with _ | ⟨third, _ | ⟨fourth, more⟩⟩
  · exact absurd hrest (split_ne_nil "/" rest)
  · simp [assetOfParts, hcategory, hname]
  · by_cases hthird : third = ""
    · simp [assetOfParts, hcategory, hname, hthird]
    · by_cases hreserved : third ∈ reservedFolders <;>
        simp [assetOfParts, hcategory, hname, hthird, hreserved]

lemma join_four (a b c d : String) :
    join "/" [a, b, c, d] = s!"{a}/{b}/{c}" ++ "/" ++ d := by
  rfl

lemma assetOf_inner {category second name : String} (hcategory : category ≠ "")
    (hsecond : second ≠ "") (hname : name ≠ "") (hopen : name ∉ reservedFolders)
    {rest : String}
    (hfile : split "/" file = [kind, category, second, name] ++ split "/" rest) :
    assetOf kind file = some (join "/" [kind, category, second, name]) := by
  rw [assetOf, hfile, join_four]
  simp [assetOfParts, hcategory, hsecond, hname, hopen, split_ne_nil]

lemma assetOf_other {other : String} (hne : kind ≠ other) {parts : List String}
    (hfile : split "/" file = kind :: parts) : assetOf other file = none := by
  rw [assetOf, hfile]
  unfold assetOfParts
  split
  · next h =>
    cases h
    simp [hne]
  · rfl

/-- To which asset a file below a found asset is given: to the asset itself if it lies in a
subcategory or the path keeps to it, and else to the folder of its own that the path goes into. -/
lemma assetOf_below (hkind : kind ∈ ["components", "pipelines"]) (ha : a.Placed) (rest : String) :
    assetOf kind (a.folder kind ++ "/" ++ rest) =
      some (if inSubcategory (a.folder kind) then a.folder kind else
        match ownFolder rest with
        | some d => a.folder kind ++ "/" ++ d
        | none => a.folder kind) := by
  have hsplit := Asset.split_below_folder hkind ha rest
  have hfolder := Asset.split_folder hkind ha
  rcases hsub : a.subcategory with _ | second
  · rw [hsub] at hsplit hfolder
    have hdirect : inSubcategory (a.folder kind) = false := by simp [inSubcategory, hfolder]
    rw [assetOf_direct ha.category.1 ha.name.1 (by simpa using hsplit), hdirect]
    simp [Asset.folder, hsub]
  · rw [hsub] at hsplit hfolder
    have hinner : inSubcategory (a.folder kind) := by simp [inSubcategory, hfolder]
    rw [assetOf_inner ha.category.1 (ha.subcategory second hsub).1 ha.name.1
      (ha.unreserved (by simp [hsub])) (by simpa using hsplit), hinner]
    simp [Asset.folder, hsub]

lemma append_folder_ne (asset d : String) : asset ++ "/" ++ d ≠ asset := by
  intro h
  have hlength := congrArg (fun s : String => s.toList.length) h
  simp only [String.toList_append, length_append] at hlength
  have hslash : "/".toList.length = 1 := rfl
  omega

/-- Whatever the tree, a changed file below an asset with metadata is given to an asset of the same
kind only. It is given to that very asset exactly if the asset lies in a subcategory, or the file
lies in its folder itself or in a reserved one; else to the folder of the asset that it lies in. -/
theorem changed_below_asset (base : Path) (site : Site) {w w' : World} {found : List String}
    {asset : String} (hnames : w.tree.PlainNames)
    (hfound : Asset.allWithMetadata base site w = (.ok found, w')) (hasset : asset ∈ found)
    (rest : String) :
    ∃ kind other, (kind, other) ∈ [("components", "pipelines"), ("pipelines", "components")] ∧
      (Text.split "/" asset).head? = some kind ∧
      assetsOf other [asset ++ "/" ++ rest] = [] ∧
      (assetsOf kind [asset ++ "/" ++ rest] = [asset] ↔
        inSubcategory asset ∨ ownFolder rest = none) ∧
      ∀ d, ¬inSubcategory asset → ownFolder rest = some d →
        assetsOf kind [asset ++ "/" ++ rest] = [asset ++ "/" ++ d] := by
  have hpost := (Asset.allWithMetadata_ensures hnames base site w rfl).2
  rw [hfound] at hpost
  obtain ⟨kind, hkind, a, ha, rfl⟩ := hpost found rfl asset hasset
  have hsplit := Asset.split_below_folder hkind ha rest
  have hhead : (Text.split "/" (a.folder kind)).head? = some kind := by
    simp [Asset.split_folder hkind ha]
  have hother {other : String} (hne : kind ≠ other) :
      assetsOf other [a.folder kind ++ "/" ++ rest] = [] := by
    rw [assetsOf_single, assetOf_other hne hsplit]
    rfl
  have hown : assetsOf kind [a.folder kind ++ "/" ++ rest] = [a.folder kind] ↔
      inSubcategory (a.folder kind) ∨ ownFolder rest = none := by
    rw [assetsOf_single, assetOf_below hkind ha]
    cases inSubcategory (a.folder kind) <;> cases ownFolder rest <;> simp [append_folder_ne]
  have hinner (d : String) (hdirect : ¬inSubcategory (a.folder kind)) (hd : ownFolder rest = some d) :
      assetsOf kind [a.folder kind ++ "/" ++ rest] = [a.folder kind ++ "/" ++ d] := by
    rw [assetsOf_single, assetOf_below hkind ha, if_neg hdirect, hd]
    rfl
  simp only [mem_cons, not_mem_nil, or_false] at hkind
  rcases hkind with rfl | rfl
  · exact ⟨"components", "pipelines", by simp, hhead, hother (by decide), hown, hinner⟩
  · exact ⟨"pipelines", "components", by simp, hhead, hother (by decide), hown, hinner⟩

/-- A catalogue with one component, which lies directly in its category and has a folder of its own
for prompts. -/
def promptCatalogue : Tree where
  files := [(["components", "training", "tuner", "metadata.yaml"], .text "name: tuner\n"),
    (["components", "training", "tuner", "prompts", "ask.txt"], .text "")]
  folders := [[], ["components"], ["components", "training"], ["components", "training", "tuner"],
    ["components", "training", "tuner", "prompts"]]

lemma promptCatalogue_found :
    Asset.allWithMetadata ⟨"", []⟩ rootSite { tree := promptCatalogue } =
      (.ok ["components/training/tuner"], { tree := promptCatalogue }) := by
  cbv

theorem changed_below_tuner :
    assetsOf "components" ["components/training/tuner/tests/unit/test_ask.py"] =
      ["components/training/tuner"] ∧
    assetsOf "components" ["components/training/tuner/prompts/ask.txt"] =
      ["components/training/tuner/prompts"] := by
  have hnames : promptCatalogue.PlainNames := by decide
  have hhead : (Text.split "/" "components/training/tuner").head? = some "components" := by decide
  constructor
  · obtain ⟨kind, _, _, hkind, _, hown, _⟩ := changed_below_asset ⟨"", []⟩ rootSite hnames
      promptCatalogue_found (mem_singleton.mpr rfl) "tests/unit/test_ask.py"
    cases hkind.symm.trans hhead
    exact hown.mpr (.inr (by decide))
  · obtain ⟨kind, _, _, hkind, _, _, hinner⟩ := changed_below_asset ⟨"", []⟩ rootSite hnames
      promptCatalogue_found (mem_singleton.mpr rfl) "prompts/ask.txt"
    cases hkind.symm.trans hhead
    exact hinner "prompts" (by decide) (by decide)

/-- Not every changed file below an asset is given to it. -/
theorem changed_below_asset_elsewhere :
    ¬∀ (base : Path) (site : Site) (w w' : World) (found : List String) (asset rest : String),
      w.tree.PlainNames → Asset.allWithMetadata base site w = (.ok found, w') → asset ∈ found →
        asset ∈ assetsOf "components" [asset ++ "/" ++ rest] ++
          assetsOf "pipelines" [asset ++ "/" ++ rest] := by
  intro h
  have hreported := h ⟨"", []⟩ rootSite _ _ _ "components/training/tuner" "prompts/ask.txt"
    (by decide) promptCatalogue_found (mem_singleton.mpr rfl)
  have hother : assetsOf "components" ["components/training/tuner/prompts/ask.txt"] ++
      assetsOf "pipelines" ["components/training/tuner/prompts/ask.txt"] =
        ["components/training/tuner/prompts"] := by
    cbv
  rw [show "components/training/tuner" ++ "/" ++ "prompts/ask.txt" =
    "components/training/tuner/prompts/ask.txt" by decide, hother] at hreported
  exact absurd hreported (by decide)

/-- A file is given to the asset of its first two names below the root, or of its first three if the
third is that of a folder and not reserved. -/
def GivenTo (root file asset : String) : Prop :=
  ∃ category second third rest, split "/" file = root :: category :: second :: third :: rest ∧
    category ≠ "" ∧ second ≠ "" ∧
    asset = if third ≠ "" ∧ third ∉ ["tests", "shared"] ∧ rest ≠ [] then
      join "/" [root, category, second, third] else join "/" [root, category, second]

lemma assetOf_eq_some_iff {root asset : String} :
    assetOf root file = some asset ↔ GivenTo root file asset := by
  rw [assetOf, GivenTo]
  generalize split "/" file = parts
  fun_cases assetOfParts root parts with
  | case1 top category second third rest hnames direct hown =>
    simp only [Bool.and_eq_true, decide_eq_true_eq] at hnames
    obtain ⟨⟨rfl, hcategory⟩, hsecond⟩ := hnames
    have hinner : third ≠ "" ∧ third ∉ ["tests", "shared"] ∧ rest ≠ [] := by
      simpa [reservedFolders, and_comm, and_left_comm] using hown
    constructor
    · intro h
      refine ⟨_, _, _, _, rfl, hcategory, hsecond, ?_⟩
      rw [if_pos hinner, join_four]
      exact (Option.some.inj h).symm
    · rintro ⟨_, _, _, _, ⟨⟩, -, -, rfl⟩
      rw [if_pos hinner, join_four]
  | case2 top category second third rest hnames direct hown =>
    simp only [Bool.and_eq_true, decide_eq_true_eq] at hnames
    obtain ⟨⟨rfl, hcategory⟩, hsecond⟩ := hnames
    have hinner : ¬(third ≠ "" ∧ third ∉ ["tests", "shared"] ∧ rest ≠ []) := by
      simpa [reservedFolders, and_comm, and_left_comm] using hown
    constructor
    · intro h
      refine ⟨_, _, _, _, rfl, hcategory, hsecond, ?_⟩
      rw [if_neg hinner, join_three]
      exact (Option.some.inj h).symm
    · rintro ⟨_, _, _, _, ⟨⟩, -, -, rfl⟩
      rw [if_neg hinner, join_three]
  | case3 top category second third rest hnames =>
    refine ⟨nofun, ?_⟩
    rintro ⟨_, _, _, _, ⟨⟩, hcategory, hsecond, -⟩
    exact absurd (by simp [hcategory, hsecond]) hnames
  | case4 parts hshort =>
    refine ⟨nofun, ?_⟩
    rintro ⟨_, _, _, _, rfl, -⟩
    exact absurd rfl (hshort _ _ _ _ _)

lemma sort_distinct_increasing (xs : List String) :
    (sort (distinct xs)).Pairwise (· < ·) := by
  have hnodup : (sort (distinct xs)).Nodup :=
    (mergeSort_perm _ _).nodup_iff.mpr (nodup_distinct xs)
  refine ((pairwise_mergeSort id _).and hnodup).imp ?_
  intro a b h
  exact lt_of_le_of_ne h.1 h.2

end Change

end AssetCatalog
