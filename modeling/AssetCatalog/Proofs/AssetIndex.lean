import AssetCatalog.Proofs.AssetPlaces
import AssetCatalog.Proofs.ReadmeTexts

/-!
# Which assets the indexes list

The indexes of a category and of its subcategories list every asset that is found in the category, and
besides those only assets below hidden folders.
-/

namespace AssetCatalog.Readme

open List Asset Metadata Path

open AssetCatalog.Asset (isHidden IsOpen Marks Paired laid)
open AssetCatalog.Path (IsStep)
open AssetCatalog.Run (bind_apply bind_of_eq filterM_apply rootSite)

variable {q : Path} {n : String}

/-- The assets that the index of a category and those of its subcategories list, each with its
subcategory, if any. -/
def listed (isComponent : Bool) (category : Path) : Run (List (Option String × String)) := do
  let (assets, subcategories) ← categoryFolders isComponent category
  let inner ← subcategories.mapM fun s => do
    pure ((← assetFolders isComponent s).map fun p => (some s.name, p.name))
  pure (assets.map (fun p => (none, p.name)) ++ inner.flatten)

section Listing

variable (b : Bool) (site : Site) (t : Tree)
variable (entries : List Path)

def itemsIn (p : Path) : List Path :=
  sortByText (((t.namesIn (site.home.join p).names).toOption.getD []).map p.item)

def IsShown (q : Path) : Bool := t.isFolder (site.home.join q).names && !skips q

def directAmong : List Path :=
  entries.filter fun q => IsShown site t q && hasAsset b site t q

def directIn (p : Path) : List Path := directAmong b site t (itemsIn site t p)

def assetsAmong : List Path :=
  entries.filter fun q => IsShown site t q && !isReserved q && hasAsset b site t q

def assetsIn (p : Path) : List Path := assetsAmong b site t (itemsIn site t p)

def groups (p : Path) : Bool :=
  !((itemsIn site t p).filter fun q =>
    IsShown site t q && !isReserved q && Marks site t (sourceName b) q).isEmpty

def groupsAmong : List Path :=
  entries.filter fun q => IsShown site t q && !hasAsset b site t q && groups b site t q

def groupsIn (p : Path) : List Path := groupsAmong b site t (itemsIn site t p)

def listedIn (p : Path) : List (Option String × String) :=
  (directIn b site t p).map (fun q => (none, q.name)) ++
    ((groupsIn b site t p).map fun s => (assetsIn b site t s).map fun q => (some s.name, q.name)).flatten

end Listing

variable {b : Bool} {site : Site} {t : Tree} {w : World} {p : Path}

lemma folderItems_apply (h : w.tree.isFolder (site.home.join p).names) :
    Run.folderItems p site w = (.ok (itemsIn site w.tree p), w) := Run.folderItems_of_isFolder h

lemma isFolder_of_isShown (h : IsShown site t p) : t.isFolder (site.home.join p).names := by
  rw [IsShown, Bool.and_eq_true] at h
  exact h.1

lemma assetFoldersAmong_apply (entries : List Path) :
    assetFoldersAmong b entries site w = (.ok (assetsAmong b site w.tree entries), w) :=
  filterM_apply (fun q => listing_apply q (holdsAsset_apply b q site w)) entries

lemma assetFolders_apply (h : w.tree.isFolder (site.home.join p).names) :
    assetFolders b p site w = (.ok (assetsIn b site w.tree p), w) := by
  rw [assetFolders, bind_of_eq (folderItems_apply h)]
  exact assetFoldersAmong_apply _

lemma isSubcategory_apply (h : w.tree.isFolder (site.home.join p).names) :
    isSubcategory b p site w = (.ok (groups b site w.tree p), w) := by
  rw [isSubcategory, bind_of_eq (folderItems_apply h), bind_of_eq (filterM_apply
    (fun q => listing_apply q (Run.exists?_apply _ site w)) _)]
  rfl

lemma categoryFoldersAmong_apply (entries : List Path) : categoryFoldersAmong b entries site w =
      (.ok (directAmong b site w.tree entries, groupsAmong b site w.tree entries), w) := by
  have hshown (q : Path) : (do pure ((← Run.isFolder q) && !skips q) : Run Bool) site w =
      (.ok (IsShown site w.tree q), w) := by
    rfl
  have hdirect : (entries.filter (IsShown site w.tree)).filter (hasAsset b site w.tree) =
      directAmong b site w.tree entries := by
    simp only [directAmong, filter_filter, Bool.and_comm]
  have hgroups : ((entries.filter (IsShown site w.tree)).filter fun q =>
      !(directAmong b site w.tree entries).contains q).filter (groups b site w.tree) =
      groupsAmong b site w.tree entries := by
    simp only [filter_filter]
    refine filter_congr fun q hq => ?_
    have hmem : (directAmong b site w.tree entries).contains q =
        (IsShown site w.tree q && hasAsset b site w.tree q) := by
      rw [Bool.eq_iff_iff, contains_iff_mem, directAmong, mem_filter]
      exact and_iff_right hq
    rw [hmem]
    cases IsShown site w.tree q <;> cases hasAsset b site w.tree q <;> simp
  rw [categoryFoldersAmong, bind_of_eq (filterM_apply hshown _),
    bind_of_eq (filterM_apply (fun q => holdsAsset_apply b q site w) _), hdirect,
    bind_of_eq (Run.filterM_apply_of_mem (g := groups b site w.tree) ?_), hgroups]
  · rfl
  · intro q hq
    have hitem := (mem_filter.mp hq).1
    exact isSubcategory_apply (isFolder_of_isShown (mem_filter.mp hitem).2)

lemma categoryFolders_apply (h : w.tree.isFolder (site.home.join p).names) :
    categoryFolders b p site w = (.ok (directIn b site w.tree p, groupsIn b site w.tree p), w) := by
  rw [categoryFolders, bind_of_eq (folderItems_apply h)]
  exact categoryFoldersAmong_apply _

lemma isShown_of_mem_groupsIn {s : Path} (h : s ∈ groupsIn b site t p) : IsShown site t s := by
  simp only [groupsIn, groupsAmong, mem_filter, Bool.and_eq_true] at h
  exact h.2.1.1

lemma listed_apply (h : w.tree.isFolder (site.home.join p).names) :
    listed b p site w = (.ok (listedIn b site w.tree p), w) := by
  rw [listed, bind_of_eq (categoryFolders_apply h)]
  dsimp only
  rw [bind_of_eq (Run.mapM_apply
    (g := fun s => (assetsIn b site w.tree s).map fun q => (some s.name, q.name)) ?_)]
  · rfl
  · intro s hs
    rw [bind_of_eq (assetFolders_apply (isFolder_of_isShown (isShown_of_mem_groupsIn hs)))]
    rfl

/-! ## Names that are listed -/

lemma exists_item_of_mem_itemsIn (h : q ∈ itemsIn site t p) : ∃ n, q = p.item n := by
  rw [itemsIn, sortByText, mem_mergeSort, mem_map] at h
  obtain ⟨n, -, hn⟩ := h
  exact ⟨n, hn.symm⟩

section

variable (hn : n ≠ "..") (hp : t.isFolder (site.home.join p).names)
include hn hp

lemma item_mem_itemsIn (h : t.isFolder (site.home.join (p.item n)).names) :
    p.item n ∈ itemsIn site t p := by
  obtain ⟨names, hnames, hlisted⟩ := Tree.namesIn_of_isFolder hp
  rw [join_item] at h
  rw [itemsIn, sortByText, mem_mergeSort, hnames]
  exact mem_map_of_mem (hlisted n hn h)

lemma mem_directIn : p.item n ∈ directIn b site t p ↔
      IsShown site t (p.item n) ∧ hasAsset b site t (p.item n) := by
  simp only [directIn, directAmong, mem_filter, Bool.and_eq_true]
  exact ⟨And.right, fun h => ⟨item_mem_itemsIn hn hp (isFolder_of_isShown h.1), h⟩⟩

lemma mem_assetsIn : p.item n ∈ assetsIn b site t p ↔ IsShown site t (p.item n) ∧
      isReserved (p.item n) = false ∧ hasAsset b site t (p.item n) := by
  simp only [assetsIn, assetsAmong, mem_filter, Bool.and_eq_true, Bool.not_eq_true', and_assoc]
  exact ⟨And.right, fun h => ⟨item_mem_itemsIn hn hp (isFolder_of_isShown h.1), h⟩⟩

end

lemma groups_of_mem_assetsIn (h : q ∈ assetsIn b site t p) : groups b site t p := by
  rw [groups, Bool.not_eq_true', isEmpty_eq_false_iff_exists_mem]
  obtain ⟨hmem, hq⟩ := mem_filter.mp h
  refine ⟨q, mem_filter.mpr ⟨hmem, ?_⟩⟩
  simp only [Bool.and_eq_true, hasAsset] at hq ⊢
  exact ⟨hq.1, hq.2.1⟩

/-- A folder with an asset in it is listed as a subcategory exactly if it is none itself. -/
lemma mem_groupsIn {s : String} (hs : s ≠ "..") (hp : t.isFolder (site.home.join p).names)
    (hq : q ∈ assetsIn b site t (p.item s)) :
    p.item s ∈ groupsIn b site t p ↔
      IsShown site t (p.item s) ∧ hasAsset b site t (p.item s) = false := by
  simp only [groupsIn, groupsAmong, mem_filter, groups_of_mem_assetsIn hq, Bool.and_true,
    Bool.and_eq_true, Bool.not_eq_true']
  exact ⟨And.right, fun h => ⟨item_mem_itemsIn hs hp (isFolder_of_isShown h.1), h⟩⟩

lemma none_mem_listedIn : (none, n) ∈ listedIn b site t p ↔ p.item n ∈ directIn b site t p := by
  simp only [listedIn, mem_append, mem_map, mem_flatten]
  constructor
  · rintro (⟨q, hq, hname⟩ | ⟨_, ⟨s, -, rfl⟩, hmem⟩)
    · obtain ⟨m, rfl⟩ := exists_item_of_mem_itemsIn (mem_filter.mp hq).1
      simp only [Prod.mk.injEq, true_and, name_item] at hname
      rwa [← hname]
    · simp at hmem
  · intro h
    exact .inl ⟨p.item n, h, by simp⟩

lemma some_mem_listedIn {s : String} : (some s, n) ∈ listedIn b site t p ↔
      p.item s ∈ groupsIn b site t p ∧ (p.item s).item n ∈ assetsIn b site t (p.item s) := by
  simp only [listedIn, mem_append, mem_map, mem_flatten]
  constructor
  · rintro (⟨q, -, hname⟩ | ⟨_, ⟨q, hq, rfl⟩, hmem⟩)
    · simp at hname
    · obtain ⟨m, rfl⟩ := exists_item_of_mem_itemsIn (mem_filter.mp hq).1
      obtain ⟨r, hr, hname⟩ := mem_map.mp hmem
      obtain ⟨k, rfl⟩ := exists_item_of_mem_itemsIn (mem_filter.mp hr).1
      simp only [name_item] at hname
      obtain ⟨rfl, rfl⟩ := hname
      exact ⟨hq, hr⟩
  · rintro ⟨hs, hn⟩
    exact .inr ⟨_, ⟨p.item s, hs, rfl⟩, mem_map.mpr ⟨_, hn, by simp⟩⟩

/-! ## Names that are found -/

lemma isShown_of_visible (h : isHidden n = false) (p : Path) :
    IsShown site t (p.item n) = IsOpen site t (p.item n) := by
  have hskips : skips (p.item n) = false := by
    rw [skips, name_item]
    simp only [isHidden, Bool.or_eq_false_iff, Text.startsWith] at h ⊢
    rw [Bool.eq_false_iff] at h ⊢
    intro hprefix
    apply h.1
    rw [ isPrefixOf_iff_prefix] at hprefix ⊢
    exact (by decide : "_".toList <+: "__".toList).trans hprefix
  rw [IsShown, Asset.IsOpen, hskips, name_item, h]

lemma isReserved_item (p : Path) (n : String) :
    isReserved (p.item n) = false ↔ n ∉ reservedNames := by
  simp [isReserved, reservedNames, and_comm]

variable {base : Path} {c : String}

lemma isStep_sourceName (b : Bool) : IsStep (sourceName b) := by
  cases b <;> decide

lemma visible_of_isOpen (h : IsOpen site t (q.item n)) : isHidden n = false ∧ n ≠ ".." := by
  have hvisible := (isOpen_item_iff.mp h).2
  exact ⟨hvisible, (ne_dots_of_isHidden hvisible).2⟩

section

variable (hpaired : Paired t (site.home.join base).names (sourceName b) fileName)
  (hbase : t.isFolder (site.home.join base).names)
include hpaired hbase

lemma hasAsset_eq_marks {i : String} (hc : IsOpen site t (base.item c))
    (hi : IsOpen site t ((base.item c).item i)) :
    hasAsset b site t ((base.item c).item i) = Marks site t (sourceName b) ((base.item c).item i) ∧
      ∀ n, IsOpen site t (((base.item c).item i).item n) →
        hasAsset b site t (((base.item c).item i).item n) =
          Marks site t (sourceName b) (((base.item c).item i).item n) := by
  have hcategory := (mem_openIn hbase).mpr ⟨c, rfl, hc⟩
  have hitem := (mem_openIn (isFolder_of_isOpen hc)).mpr ⟨i, rfl, hi⟩
  have hboth {q : Path} (h : Marks site t (sourceName b) q = Marks site t fileName q) :
      hasAsset b site t q = Marks site t (sourceName b) q := by
    change (Marks site t (sourceName b) q && Marks site t fileName q) = _
    rw [← h, Bool.and_self]
  obtain ⟨hdirect, hinner⟩ := hpaired.marks_eq (isStep_sourceName b) (by decide) hcategory hitem
  refine ⟨hboth hdirect, fun n hn => hboth (hinner _ ?_)⟩
  exact (mem_openIn (isFolder_of_isOpen hi)).mpr ⟨n, rfl, hn⟩

variable (hcategory : t.isFolder (site.home.join (base.item c)).names)
include hcategory

lemma found_direct_iff_listed (n : String) :
    (∃ a ∈ laid site t base (sourceName b), a.category = c ∧ a.subcategory = none ∧ a.name = n) ↔
      (none, n) ∈ listedIn b site t (base.item c) ∧ isHidden c = false ∧ isHidden n = false := by
  rw [found_direct_iff hbase, none_mem_listedIn]
  constructor
  · rintro ⟨hc, hn, hmarks⟩
    obtain ⟨hvisible, hdots⟩ := visible_of_isOpen hn
    rw [mem_directIn hdots hcategory, isShown_of_visible hvisible,
      (hasAsset_eq_marks hpaired hbase hc hn).1]
    exact ⟨⟨hn, hmarks⟩, (visible_of_isOpen hc).1, hvisible⟩
  · rintro ⟨hmem, hc, hvisible⟩
    have hdots := (ne_dots_of_isHidden hvisible).2
    have hopen : IsOpen site t (base.item c) :=
      isOpen_item_iff.mpr ⟨join_item _ base c ▸ hcategory, hc⟩
    rw [mem_directIn hdots hcategory, isShown_of_visible hvisible] at hmem
    rw [← (hasAsset_eq_marks hpaired hbase hopen hmem.1).1]
    exact ⟨hopen, hmem⟩

lemma found_inner_iff_listed (s n : String) :
    (∃ a ∈ laid site t base (sourceName b), a.category = c ∧ a.subcategory = some s ∧ a.name = n) ↔
      (some s, n) ∈ listedIn b site t (base.item c) ∧
        isHidden c = false ∧ isHidden s = false ∧ isHidden n = false := by
  rw [found_inner_iff hbase, some_mem_listedIn]
  constructor
  · rintro ⟨hc, hs, hnot, hn, hname, hmarks⟩
    obtain ⟨hsub, hsubDots⟩ := visible_of_isOpen hs
    obtain ⟨hvisible, hdots⟩ := visible_of_isOpen hn
    obtain ⟨hitem, hinner⟩ := hasAsset_eq_marks hpaired hbase hc hs
    have hasset : ((base.item c).item s).item n ∈ assetsIn b site t ((base.item c).item s) := by
      rw [mem_assetsIn hdots (isFolder_of_isOpen hs), isShown_of_visible hvisible,
        isReserved_item, hinner n hn]
      exact ⟨hn, hname, hmarks⟩
    rw [mem_groupsIn hsubDots hcategory hasset, isShown_of_visible hsub, hitem]
    exact ⟨⟨⟨hs, hnot⟩, hasset⟩, (visible_of_isOpen hc).1, hsub, hvisible⟩
  · rintro ⟨⟨hgroup, hasset⟩, hc, hsub, hvisible⟩
    have hopen : IsOpen site t (base.item c) :=
      isOpen_item_iff.mpr ⟨join_item _ base c ▸ hcategory, hc⟩
    rw [mem_groupsIn (ne_dots_of_isHidden hsub).2 hcategory hasset, isShown_of_visible hsub]
      at hgroup
    rw [mem_assetsIn (ne_dots_of_isHidden hvisible).2 (isFolder_of_isOpen hgroup.1),
      isShown_of_visible hvisible, isReserved_item] at hasset
    obtain ⟨hitem, hinner⟩ := hasAsset_eq_marks hpaired hbase hopen hgroup.1
    rw [← hitem, ← hinner n hasset.1]
    exact ⟨hopen, hgroup.1, hgroup.2, hasset⟩

end

/-- The assets that are found in a category are those of its listing whose names are visible. -/
theorem found_iff_listed
    (hpaired : Paired w.tree (site.home.join base).names (sourceName b) Metadata.fileName)
    (hcategory : w.tree.isFolder (site.home.join (base.item c)).names = true) :
    ∃ assets listing,
      Asset.discover base (typeOf b) site w = (.ok assets, w) ∧
      listed b (base.item c) site w = (.ok listing, w) ∧
      ∀ s n, (∃ a ∈ assets, a.category = c ∧ a.subcategory = s ∧ a.name = n) ↔
        (s, n) ∈ listing ∧ ∀ m ∈ c :: s.toList ++ [n], isHidden m = false := by
  have hbase : w.tree.isFolder (site.home.join base).names = true := by
    apply Tree.isFolder_of_exists? (n := c) (q := [])
    rw [Tree.exists?, ← Path.join_item, hcategory, Bool.or_true]
  refine ⟨laid site w.tree base (sourceName b), _, Asset.discover_of_isFolder (typeOf b) hbase,
    listed_apply hcategory, fun s n => ?_⟩
  cases s with
  | none => simpa using found_direct_iff_listed hpaired hbase hcategory n
  | some s => simpa using found_inner_iff_listed hpaired hbase hcategory s n

example : skips ⟨"", ["data", "__pycache__"]⟩ = true := by decide +kernel

/-- A catalogue with a component whose name starts with an underscore and one in a subcategory. -/
def draftCatalogue : Tree where
  files := [(["components", "data", "_draft", "component.py"], .text ""),
    (["components", "data", "_draft", "metadata.yaml"], .text ""),
    (["components", "data", "text", "reader", "component.py"], .text ""),
    (["components", "data", "text", "reader", "metadata.yaml"], .text "")]
  folders := [[], ["components"], ["components", "data"], ["components", "data", "_draft"],
    ["components", "data", "text"], ["components", "data", "text", "reader"]]

lemma paired_draftCatalogue :
    Paired draftCatalogue ["components"] "component.py" "metadata.yaml" :=
  paired_of_forall_folders (by decide) (by decide +kernel)

theorem found_iff_listed_reader : ∃ assets listing,
      Asset.discover ⟨"", ["components"]⟩ "component" rootSite { tree := draftCatalogue } =
        (.ok assets, { tree := draftCatalogue }) ∧
      listed true ⟨"", ["components", "data"]⟩ rootSite { tree := draftCatalogue } =
        (.ok listing, { tree := draftCatalogue }) ∧
      (some "text", "reader") ∈ listing ∧
      ∃ a ∈ assets, a.category = "data" ∧ a.subcategory = some "text" ∧ a.name = "reader" := by
  have hbase : draftCatalogue.isFolder (rootSite.home.join ⟨"", ["components"]⟩).names = true := by
    decide +kernel
  have hpaired : Paired draftCatalogue (rootSite.home.join ⟨"", ["components"]⟩).names
      (sourceName true) Metadata.fileName := paired_draftCatalogue
  obtain ⟨assets, listing, hassets, hlisting, hiff⟩ := found_iff_listed (c := "data")
    (w := { tree := draftCatalogue }) hpaired (by decide +kernel)
  have hreader : ∃ a ∈ assets, a.category = "data" ∧ a.subcategory = some "text" ∧ a.name = "reader" := by
    cases hassets.symm.trans (Asset.discover_of_isFolder "component" hbase)
    exact (Asset.found_inner_iff hbase).mpr (by decide +kernel)
  exact ⟨assets, listing, hassets, hlisting, ((hiff _ _).mp hreader).1, hreader⟩

/-- A listing has more than what is found: an asset whose name starts with one underscore. -/
theorem listed_draft_not_found :
    Paired draftCatalogue ["components"] "component.py" "metadata.yaml" ∧
    ∃ assets listing,
      Asset.discover ⟨"", ["components"]⟩ "component" rootSite { tree := draftCatalogue } =
        (.ok assets, { tree := draftCatalogue }) ∧
      listed true ⟨"", ["components", "data"]⟩ rootSite { tree := draftCatalogue } =
        (.ok listing, { tree := draftCatalogue }) ∧
      (none, "_draft") ∈ listing ∧
      ¬∃ a ∈ assets, a.category = "data" ∧ a.subcategory = none ∧ a.name = "_draft" := by
  have hbase : draftCatalogue.isFolder (rootSite.home.join ⟨"", ["components"]⟩).names = true := by
    decide +kernel
  have hcategory : draftCatalogue.isFolder (rootSite.home.join ⟨"", ["components", "data"]⟩).names =
      true := by
    decide +kernel
  refine ⟨paired_draftCatalogue, _, _, Asset.discover_of_isFolder "component" hbase,
    listed_apply hcategory, ?_, ?_⟩
  · rw [none_mem_listedIn, mem_directIn (by decide) hcategory]
    decide +kernel
  · intro h
    have hopen := ((Asset.found_direct_iff hbase).mp h).2.1
    exact absurd (visible_of_isOpen hopen).1 (by decide)

end AssetCatalog.Readme
