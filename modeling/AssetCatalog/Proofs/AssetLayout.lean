import AssetCatalog.Asset.Discovery
import AssetCatalog.Proofs.TreeGrowth

/-!
# Which assets are found

An asset is found exactly where the folders down to it are open and its file is there, unless the folder
above is an asset itself.
-/

namespace AssetCatalog

open List

open Run (bind_of_eq)

variable {w : World}

namespace Run

variable {α β : Type}

lemma mapM_apply {f : α → Run β} {g : α → β} {site : Site} {xs : List α}
    (h : ∀ a ∈ xs, f a site w = (.ok (g a), w)) : xs.mapM f site w = (.ok (xs.map g), w) := by
  induction xs with
  | nil => rfl
  | cons a as ih =>
    obtain ⟨ha, has⟩ := forall_mem_cons.mp h
    rw [mapM_cons, bind_of_eq ha, bind_of_eq (ih has)]
    rfl

end Run

namespace Tree

lemma namesIn_of_isFolder {t : Tree} {p : Location} (h : t.isFolder p) :
    ∃ names, t.namesIn p = .ok names ∧
      ∀ n, n ≠ ".." → t.isFolder (p ++ [n]) → n ∈ names := by
  obtain ⟨l, hl, hfolder⟩ := (isFolder_iff t p).mp h
  obtain ⟨names, hnames⟩ := namesIn_of_mem hl hfolder
  refine ⟨names, hnames, fun n hn hopen => ?_⟩
  obtain ⟨k, hk, _, _, hmem⟩ := namesIn_eq_ok hnames
  obtain ⟨j, hj, hjfolder⟩ := (isFolder_iff t (p ++ [n])).mp hopen
  obtain ⟨d, hd, _, rfl⟩ := follow_concat_eq_ok hn hj
  cases hk.symm.trans hd
  rw [hmem]
  exact mem_append_right _ hjfolder

end Tree

lemma Run.folderItems_of_isFolder {site : Site} {p : Path}
    (h : w.tree.isFolder (site.home.join p).names) : Run.folderItems p site w =
      (.ok (Path.sortByText (((w.tree.namesIn (site.home.join p).names).toOption.getD []).map p.item)), w) := by
  obtain ⟨names, hnames, -⟩ := Tree.namesIn_of_isFolder h
  simp only [Run.folderItems, Run.bind_apply, Run.locate_apply, Run.get_apply, hnames]
  rfl

namespace Asset

variable (site : Site) (t : Tree)
variable {base p : Path} {fileName : String}

def IsOpen (p : Path) : Bool := t.isFolder (site.home.join p).names && !isHidden p.name

def openIn (p : Path) : List Path :=
  (Path.sortByText (((t.namesIn (site.home.join p).names).toOption.getD []).map p.item)).filter
    (IsOpen site t)

def Marks (fileName : String) (p : Path) : Bool := t.exists? (site.home.join (p.below fileName)).names

def assetsAt (fileName : String) (category item : Path) : List Asset :=
  if Marks site t fileName item then
    [{ path := item.below fileName, category := category.name, name := item.name }]
  else
    (((openIn site t item).filter fun q => !reservedNames.contains q.name).filter
      (Marks site t fileName)).map fun q =>
        { path := q.below fileName, category := category.name, subcategory := some item.name,
          name := q.name }

def laid (base : Path) (fileName : String) : List Asset :=
  (openIn site t base).flatMap fun category =>
    (openIn site t category).flatMap (assetsAt site t fileName category)

variable {site t}

@[simp] lemma name_item (p : Path) (n : String) : (p.item n).name = n := by
  simp [Path.name, Path.item]

lemma isFolder_of_mem_openIn {q : Path} (h : q ∈ openIn site t p) :
    t.isFolder (site.home.join q).names := by
  have hopen := (mem_filter.mp h).2
  rw [IsOpen, Bool.and_eq_true] at hopen
  exact hopen.1

lemma mem_openIn {q : Path} (h : t.isFolder (site.home.join p).names) :
    q ∈ openIn site t p ↔ ∃ n, q = p.item n ∧ IsOpen site t q := by
  obtain ⟨names, hnames, hlisted⟩ := Tree.namesIn_of_isFolder h
  rw [openIn, mem_filter, Path.sortByText, mem_mergeSort, mem_map, hnames]
  constructor
  · rintro ⟨⟨n, _, rfl⟩, hopen⟩
    exact ⟨n, rfl, hopen⟩
  · rintro ⟨n, rfl, hopen⟩
    refine ⟨⟨n, ?_, rfl⟩, hopen⟩
    rw [IsOpen, Bool.and_eq_true, Bool.not_eq_true', name_item, Path.join_item] at hopen
    apply hlisted n _ hopen.1
    rintro rfl
    exact absurd hopen.2 (by decide)

lemma openFolders_apply (h : w.tree.isFolder (site.home.join p).names) :
    openFolders p site w = (.ok (openIn site w.tree p), w) := by
  have hchoice (q : Path) : (do pure ((← Run.isFolder q) && !isHidden q.name) : Run Bool) site w =
      (.ok (IsOpen site w.tree q), w) := by
    rfl
  rw [openFolders, bind_of_eq (Run.folderItems_of_isFolder h), Run.filterM_apply hchoice, openIn]

lemma layoutAt_apply {category item : Path} (fileName : String)
    (h : w.tree.isFolder (site.home.join item).names) :
    layoutAt fileName category item site w = (.ok (assetsAt site w.tree fileName category item), w) := by
  have hmarks (q : Path) : Run.exists? (q.below fileName) site w =
      (.ok (Marks site w.tree fileName q), w) := Run.exists?_apply _ site w
  rw [layoutAt, bind_of_eq (hmarks item), assetsAt]
  by_cases hitem : Marks site w.tree fileName item
  · rw [if_pos hitem, if_pos hitem]
    rfl
  · rw [if_neg hitem, if_neg hitem, bind_of_eq (openFolders_apply h),
      bind_of_eq (Run.filterM_apply hmarks _)]
    rfl

lemma layout_apply (fileName : String) (h : w.tree.isFolder (site.home.join base).names) :
    layout base fileName site w = (.ok (laid site w.tree base fileName), w) := by
  rw [layout, bind_of_eq (openFolders_apply h)]
  rw [bind_of_eq (Run.mapM_apply (g := fun category =>
    (openIn site w.tree category).flatMap (assetsAt site w.tree fileName category)) ?_)]
  · rfl
  · intro category hcategory
    rw [bind_of_eq (openFolders_apply (isFolder_of_mem_openIn hcategory)),
      bind_of_eq (Run.mapM_apply fun item hitem =>
        layoutAt_apply fileName (isFolder_of_mem_openIn hitem))]
    rfl

lemma mem_laid {a : Asset} (h : t.isFolder (site.home.join base).names) :
    a ∈ laid site t base fileName ↔
      ∃ category item, IsOpen site t (base.item category) ∧
        IsOpen site t ((base.item category).item item) ∧
        a ∈ assetsAt site t fileName (base.item category) ((base.item category).item item) := by
  simp only [laid, mem_flatMap]
  constructor
  · rintro ⟨category, hcategory, item, hitem, ha⟩
    have hfolder := isFolder_of_mem_openIn hcategory
    obtain ⟨c, rfl, hc⟩ := (mem_openIn h).mp hcategory
    obtain ⟨i, rfl, hi⟩ := (mem_openIn hfolder).mp hitem
    exact ⟨c, i, hc, hi, ha⟩
  · rintro ⟨c, i, hc, hi, ha⟩
    have hcategory := (mem_openIn h).mpr ⟨c, rfl, hc⟩
    have hitem := (mem_openIn (isFolder_of_mem_openIn hcategory)).mpr ⟨i, rfl, hi⟩
    exact ⟨_, hcategory, _, hitem, ha⟩

lemma isFolder_of_isOpen (h : IsOpen site t p) : t.isFolder (site.home.join p).names := by
  rw [IsOpen, Bool.and_eq_true] at h
  exact h.1

lemma mem_assetsAt {category item : Path} {a : Asset} (h : IsOpen site t item) :
    a ∈ assetsAt site t fileName category item ↔
      (Marks site t fileName item ∧
        a = { path := item.below fileName, category := category.name, name := item.name }) ∨
      Marks site t fileName item = false ∧ ∃ name, IsOpen site t (item.item name) ∧
        name ∉ reservedNames ∧ Marks site t fileName (item.item name) ∧
        a = { path := (item.item name).below fileName, category := category.name
              subcategory := some item.name, name := name } := by
  rw [assetsAt]
  by_cases hmarks : Marks site t fileName item
  · simp [hmarks]
  · simp only [hmarks, mem_map, mem_filter, mem_openIn (isFolder_of_isOpen h),
      Bool.false_eq_true, if_false, false_and, false_or, true_and]
    constructor
    · rintro ⟨q, ⟨⟨⟨n, rfl, hopen⟩, hname⟩, hq⟩, rfl⟩
      exact ⟨n, hopen, by simpa using hname, hq, by simp⟩
    · rintro ⟨n, hopen, hname, hq, rfl⟩
      exact ⟨item.item n, ⟨⟨⟨n, rfl, hopen⟩, by simpa using hname⟩, hq⟩, by simp⟩

lemma found_direct_iff {category name : String} (h : t.isFolder (site.home.join base).names) :
    (∃ a ∈ laid site t base fileName, a.category = category ∧ a.subcategory = none ∧ a.name = name) ↔
      IsOpen site t (base.item category) ∧
      IsOpen site t ((base.item category).item name) ∧
      Marks site t fileName ((base.item category).item name) := by
  constructor
  · rintro ⟨a, ha, rfl, hsub, rfl⟩
    obtain ⟨c, i, hc, hi, ha⟩ := (mem_laid h).mp ha
    rcases (mem_assetsAt hi).mp ha with ⟨hmarks, rfl⟩ | ⟨-, n, -, -, -, rfl⟩
    · simpa using ⟨hc, hi, hmarks⟩
    · cases hsub
  · rintro ⟨hc, hi, hmarks⟩
    have ha := (mem_laid h).mpr ⟨category, name, hc, hi, (mem_assetsAt hi).mpr (.inl ⟨hmarks, rfl⟩)⟩
    exact ⟨_, ha, by simp⟩

lemma found_inner_iff {category subcategory name : String}
    (h : t.isFolder (site.home.join base).names) :
    (∃ a ∈ laid site t base fileName,
      a.category = category ∧ a.subcategory = some subcategory ∧ a.name = name) ↔
      IsOpen site t (base.item category) ∧
      IsOpen site t ((base.item category).item subcategory) ∧
      Marks site t fileName ((base.item category).item subcategory) = false ∧
      IsOpen site t (((base.item category).item subcategory).item name) ∧
      name ∉ reservedNames ∧
      Marks site t fileName (((base.item category).item subcategory).item name) := by
  constructor
  · rintro ⟨a, ha, rfl, hsub, rfl⟩
    obtain ⟨c, i, hc, hi, ha⟩ := (mem_laid h).mp ha
    rcases (mem_assetsAt hi).mp ha with ⟨-, rfl⟩ | ⟨hmarks, n, hopen, hname, hheld, rfl⟩
    · cases hsub
    · obtain rfl : i = subcategory := by simpa using hsub
      simpa using ⟨hc, hi, hmarks, hopen, hname, hheld⟩
  · rintro ⟨hc, hi, hmarks, hopen, hname, hheld⟩
    have ha := (mem_laid h).mpr ⟨category, subcategory, hc, hi,
      (mem_assetsAt hi).mpr (.inr ⟨hmarks, name, hopen, hname, hheld, rfl⟩)⟩
    exact ⟨_, ha, by simp⟩

end Asset

end AssetCatalog
