import AssetCatalog.Proofs.AssetLayout
import AssetCatalog.Proofs.ChangedAsset
import AssetCatalog.Proofs.SkeletonGrowth

/-!
# Whether a new asset is found

It is, unless its name is hidden or reserved, or its subcategory is taken for an asset.
-/

namespace AssetCatalog

open List

variable {n s : String} {base : Path} {w : World}

namespace Tree

lemma isFolder_of_exists? {t : Tree} {p q : Location}
    (h : t.exists? (p ++ n :: q)) : t.isFolder p := by
  obtain ⟨l, hl, -⟩ := (exists?_iff t _).mp h
  exact isFolder_of_follow_append hl

lemma exists?_concat_iff {t : Tree} {p : Location} (hp : ".." ∉ p) (hn : n ≠ "..")
    (h : t.isFolder p) : t.exists? (p ++ [n]) ↔ (t.entry? (p ++ [n])).isSome := by
  have hdots : ".." ∉ p ++ [n] := by
    rw [mem_append, mem_singleton, not_or]
    exact ⟨hp, Ne.symm hn⟩
  rw [exists?_iff]
  constructor
  · rintro ⟨l, hl, hentry⟩
    rwa [eq_append_of_follow hdots hl] at hentry
  · intro hentry
    obtain ⟨l, hl, hfolder⟩ := (isFolder_iff t p).mp h
    obtain rfl : l = p := eq_append_of_follow hp hl
    refine ⟨l ++ [n], ?_, hentry⟩
    rw [follow_concat, hl]
    simp only [Except.bind, (entry?_eq_folder_iff t l).mpr hfolder, if_neg hn]

end Tree

namespace Asset

variable {site : Site} {t : Tree}

lemma isOpen_item_iff {q : Path} : IsOpen site t (q.item n) ↔
    t.isFolder ((site.home.join q).names ++ [n]) ∧ isHidden n = false := by
  rw [IsOpen, Bool.and_eq_true, Path.join_item, name_item, Bool.not_eq_true']

lemma marks_iff {q : Path} (hn : Path.IsStep n) :
    Marks site t n q = t.exists? ((site.home.join q).names ++ [n]) := by
  rw [Marks, Path.join_below _ _ (Path.ofText_of_isStep hn)]

lemma discover_of_isFolder (type : String) (h : w.tree.isFolder (site.home.join base).names) :
    discover base type site w = (.ok (laid site w.tree base (type ++ ".py")), w) := by
  have hexists : Run.exists? base site w = (.ok true, w) := by
    rw [Run.exists?_apply, Tree.exists?, h, Bool.or_true]
  rw [discover, Run.bind_of_eq hexists]
  exact layout_apply _ h

lemma withMetadata_of_isFolder {kind : String} {root : Path}
    (h : w.tree.isFolder (site.home.join (root.below kind)).names) :
    withMetadata kind root site w =
      (.ok ((laid site w.tree (root.below kind) "metadata.yaml").map (folder kind)), w) := by
  have hexists : Run.exists? (root.below kind) site w = (.ok true, w) := by
    rw [Run.exists?_apply, Tree.exists?, h, Bool.or_true]
  rw [withMetadata, Run.bind_of_eq hexists]
  rw [if_pos rfl, Run.bind_of_eq (layout_apply _ h)]
  rfl

lemma placed_of_mem_laid {fileName : String} {a : Asset}
    (hnames : w.tree.PlainNames) (hfolder : w.tree.isFolder (site.home.join base).names)
    (ha : a ∈ laid site w.tree base fileName) : a.Placed := by
  have hensures := (layout_ensures hnames base fileName site w rfl).2
  rw [layout_apply fileName hfolder] at hensures
  exact hensures _ rfl a ha

lemma isHidden_of_startsWithLetter (h : Skeleton.startsWithLetter s) : isHidden s = false := by
  rw [Skeleton.startsWithLetter] at h
  split at h
  · next c cs hs =>
    have hfirst (d : Char) (hd : Text.isLetter d = false) : d ≠ c := by
      rintro rfl
      rw [h] at hd
      cases hd
    simp [isHidden, Text.startsWith, hs, List.isPrefixOf, hfirst '_' (by decide +kernel),
      hfirst '.' (by decide +kernel)]
  · cases h

end Asset

namespace Skeleton

open AssetCatalog.Path (IsStep)
open AssetCatalog.Run (rootSite)

variable {site : Site} {p : Place} {t u : Tree}

/-- Whether an asset that is made in a tree will be found by a file: its name is neither hidden nor,
in a subcategory, reserved, and no such file lies in the subcategory itself. -/
def Place.IsVisible (site : Site) (t : Tree) (p : Place) (fileName : String) : Prop :=
  Asset.isHidden p.draft.name = false ∧
    ∀ s ∈ p.subcategory, p.draft.name ∉ Asset.reservedNames ∧
      t.entry? (site.home.names ++ [typeFolder p.draft.type, p.draft.category, s, fileName]) = none

lemma isStep_of_mem_marks (htype : p.draft.type ∈ ["component", "pipeline"])
    (hn : n ∈ p.marks) : IsStep n ∧ '.' ∈ n.toList ∧ n ∉ groupNames := by
  simp only [Place.marks, mem_cons, not_mem_nil, or_false] at hn htype
  rcases htype with htype | htype <;> rw [htype] at hn <;> rcases hn with rfl | rfl <;> decide

lemma not_adds_mark (site : Site) (hname : IsWord p.draft.name) (hs : p.group? = some s)
    (htype : p.draft.type ∈ ["component", "pipeline"]) (hn : n ∈ p.marks) :
    ¬p.Adds site (site.home.names ++ [typeFolder p.draft.type, p.draft.category, s, n]) := by
  obtain ⟨-, hpoint, hgroup⟩ := isStep_of_mem_marks htype hn
  have hne : n ≠ p.draft.name := by
    rintro rfl
    exact hname.notMem (by decide) hpoint
  have hnames : p.names = [typeFolder p.draft.type, p.draft.category, s, p.draft.name] := by
    rw [Place.names, hs]
    rfl
  rintro ⟨-, h | h | ⟨s', hs', m, hm, h⟩⟩
  · rw [hnames, prefix_append_right_inj] at h
    simp [hne] at h
  · rw [hnames, prefix_append_right_inj] at h
    simp [hne.symm] at h
  · cases hs.symm.trans hs'
    obtain rfl : m = n := by simpa using h
    exact hgroup hm

namespace Place.Made

lemma isFolder (hmade : p.Made site t u) (ns : List String) {rest : List String}
    (h : p.names = ns ++ rest) :
    u.isFolder (site.home.names ++ ns) := by
  have hthere := hmade.holds "metadata.yaml" (by simp [Place.marks])
  obtain ⟨m, ms, hm⟩ := exists_cons_of_ne_nil (append_ne_nil_of_right_ne_nil rest
    (cons_ne_nil "metadata.yaml" []))
  rw [h, append_assoc, hm, ← append_assoc] at hthere
  exact Tree.isFolder_of_exists? hthere

lemma exists_mark_iff (hmade : p.Made site t u) (hhome : ∀ n ∈ site.home.names, IsStep n)
    (haccepted : p.IsAccepted) (hs : p.group? = some s) (hn : n ∈ p.marks) :
    u.exists? (site.home.names ++ [typeFolder p.draft.type, p.draft.category, s] ++ [n]) = false ↔
      t.entry? (site.home.names ++ [typeFolder p.draft.type, p.draft.category, s, n]) = none := by
  have hnames : p.names = [typeFolder p.draft.type, p.draft.category, s] ++ [p.draft.name] := by
    rw [Place.names, hs]
    rfl
  have hsteps := haccepted.isStep hmade.type
  have hdots : ".." ∉ site.home.names ++ [typeFolder p.draft.type, p.draft.category, s] := by
    apply dots_notMem (steps_append hhome _)
    intro m hm
    apply hsteps
    rw [hnames]
    exact mem_append_left _ hm
  have hmark := (isStep_of_mem_marks hmade.type hn).1.2.2
  have hnew := not_adds_mark site (isWord_of_checkName haccepted.name) hs hmade.type hn
  rw [← Bool.not_eq_true, Tree.exists?_concat_iff hdots hmark (hmade.isFolder _ hnames),
    append_assoc, ← Option.not_isSome_iff_eq_none]
  apply not_congr
  exact ⟨fun h => (hmade.grows.new _ h).resolve_right hnew, hmade.grows.entries _⟩

lemma found_iff_isVisible (hmade : p.Made site t u) (hhome : ∀ n ∈ site.home.names, IsStep n)
    (haccepted : p.IsAccepted) {fileName : String}
    (hbase : (site.home.join base).names = site.home.names ++ [typeFolder p.draft.type])
    (hmark : fileName ∈ p.marks) :
    (∃ a ∈ Asset.laid site u base fileName, a.category = p.draft.category ∧
      a.subcategory = p.subcategory ∧ a.name = p.draft.name) ↔ p.IsVisible site t fileName := by
  have hgroup := haccepted.group?_eq
  have hstep := (isStep_of_mem_marks hmade.type hmark).1
  have hcategory := Asset.isHidden_of_startsWithLetter (isWord_of_checkCategory haccepted.category).2
  have hfolder : u.isFolder (site.home.join base).names := by
    rw [hbase]
    exact hmade.isFolder [typeFolder p.draft.type] rfl
  cases hs : p.subcategory with
  | none =>
    have hnames : p.names = [typeFolder p.draft.type, p.draft.category, p.draft.name] := by
      rw [Place.names, hgroup, hs]
      rfl
    have hopen := hmade.isFolder [typeFolder p.draft.type, p.draft.category] hnames
    have hinside := hmade.isFolder _ (hnames.trans (append_nil _).symm)
    have hheld := hmade.holds fileName hmark
    rw [Asset.found_direct_iff hfolder]
    simp only [Asset.isOpen_item_iff, Asset.marks_iff hstep, Path.join_item, IsVisible]
    simp_all
  | some s =>
    have hs' : p.group? = some s := hgroup.trans hs
    have hnames : p.names = [typeFolder p.draft.type, p.draft.category, s, p.draft.name] := by
      rw [Place.names, hs']
      rfl
    have hsub := Asset.isHidden_of_startsWithLetter
      (isWord_of_checkSubcategory (haccepted.subcategory s hs)).2
    have hopen := hmade.isFolder [typeFolder p.draft.type, p.draft.category] hnames
    have hgroupOpen := hmade.isFolder [typeFolder p.draft.type, p.draft.category, s] hnames
    have hinside := hmade.isFolder _ (hnames.trans (append_nil _).symm)
    have hheld := hmade.holds fileName hmark
    have hshadow := hmade.exists_mark_iff hhome haccepted hs' hmark
    rw [Asset.found_inner_iff hfolder]
    simp only [Asset.isOpen_item_iff, Asset.marks_iff hstep, Path.join_item, IsVisible]
    simp_all
    tauto

end Place.Made

lemma folder_eq_join_iff {a : Asset} (hplain : a.Placed) (haccepted : p.IsAccepted)
    (htype : p.draft.type ∈ ["component", "pipeline"]) :
    a.folder (typeFolder p.draft.type) = Text.join "/" p.names ↔
      a.category = p.draft.category ∧ a.subcategory = p.subcategory ∧ a.name = p.draft.name := by
  have hsteps := haccepted.isStep htype
  have hslash : ∀ m ∈ [typeFolder p.draft.type, a.category] ++ a.subcategory.toList ++ [a.name],
      '/' ∉ m.toList := by
    intro m hm
    simp only [mem_append, mem_cons, not_mem_nil, or_false, Option.mem_toList] at hm
    rcases hm with ((rfl | rfl) | hm) | rfl
    · exact (hsteps _ (by simp [Place.names])).1.2
    · exact hplain.category.2
    · exact (hplain.subcategory m hm).2
    · exact hplain.name.2
  constructor
  · intro h
    have hpieces := congrArg (Text.split "/") h
    have hleft := Text.split_join '/' _ (by simp) hslash
    have hright := Text.split_join '/' p.names (by simp [Place.names]) fun m hm => (hsteps m hm).1.2
    have hlists := hleft.symm.trans (hpieces.trans hright)
    rw [Place.names, haccepted.group?_eq] at hlists
    rcases hsub : a.subcategory with _ | s <;> rcases hgroup : p.subcategory with _ | s' <;>
      simp_all
  · rintro ⟨hcategory, hsubcategory, hname⟩
    rw [Asset.folder, Place.names, haccepted.group?_eq, hcategory, hsubcategory, hname]

/-- An asset that has been made is found, by its module and by its metadata, exactly if it is to be
visible by that file. Both searches give an answer and change nothing. -/
theorem found_after_create_iff_isVisible {tests shared : Bool} {root folder : Path} {w w' : World}
    (hhome : ∀ n ∈ site.home.names, IsStep n) (hplain : w.tree.PlainNames)
    (hroot : (site.home.join root).names = site.home.names) (haccepted : p.IsAccepted)
    (h : create p tests shared site w = (.ok folder, w')) :
    ∃ assets folders,
      Asset.discover (root.below (typeFolder p.draft.type)) p.draft.type site w' = (.ok assets, w') ∧
      Asset.withMetadata (typeFolder p.draft.type) root site w' = (.ok folders, w') ∧
      ((∃ a ∈ assets, a.category = p.draft.category ∧ a.subcategory = p.subcategory ∧
        a.name = p.draft.name) ↔ p.IsVisible site w.tree (p.draft.type ++ ".py")) ∧
      (Text.join "/" p.names ∈ folders ↔ p.IsVisible site w.tree "metadata.yaml") := by
  have hmade := made_of_create hhome haccepted h
  have hkind := haccepted.isStep hmade.type (typeFolder p.draft.type) (by simp [Place.names])
  have hbase : (site.home.join (root.below (typeFolder p.draft.type))).names =
      site.home.names ++ [typeFolder p.draft.type] := by
    rw [Path.join_below _ _ (Path.ofText_of_isStep hkind), hroot]
  have hfolder : w'.tree.isFolder
      (site.home.join (root.below (typeFolder p.draft.type))).names = true := by
    rw [hbase]
    exact hmade.isFolder [typeFolder p.draft.type] rfl
  have hnames : w'.tree.PlainNames := hmade.grows.plainNames hplain fun l hl => hl.1
  refine ⟨_, _, Asset.discover_of_isFolder _ hfolder, Asset.withMetadata_of_isFolder hfolder,
    hmade.found_iff_isVisible hhome haccepted hbase (by simp [Place.marks]), ?_⟩
  rw [← hmade.found_iff_isVisible hhome haccepted hbase (by simp [Place.marks]), mem_map]
  apply exists_congr
  intro a
  apply and_congr_right
  intro ha
  exact folder_eq_join_iff (Asset.placed_of_mem_laid hnames hfolder ha) haccepted hmade.type

example : Asset.isHidden "_draft" = true := by decide +kernel

def treeTrainer (name : String) : Place where
  draft := { type := "component", category := "training", name }
  subcategory := some "trees"

def describedTrees : Tree where
  files := [(["components", "training", "trees", "metadata.yaml"], .text "name: trees\n")]
  folders := [[], ["components"], ["components", "training"], ["components", "training", "trees"]]

theorem found_after_create_described : ∃ w' assets folders,
      create (treeTrainer "boosting") true false rootSite { tree := describedTrees } =
        (.ok ⟨"", ["components", "training", "trees", "boosting"]⟩, w') ∧
      Asset.discover ⟨"", ["components"]⟩ "component" rootSite w' = (.ok assets, w') ∧
      Asset.withMetadata "components" ⟨"", []⟩ rootSite w' = (.ok folders, w') ∧
      (∃ a ∈ assets, a.category = "training" ∧ a.subcategory = some "trees" ∧ a.name = "boosting") ∧
      "components/training/trees/boosting" ∉ folders := by
  obtain ⟨w', hcreated⟩ : ∃ w',
      create (treeTrainer "boosting") true false rootSite { tree := describedTrees } =
        (.ok ⟨"", ["components", "training", "trees", "boosting"]⟩, w') :=
    ⟨_, Run.eq_ok_of_toOption (by decide +kernel)⟩
  have haccepted : (treeTrainer "boosting").IsAccepted := by decide +kernel
  have hroot : (rootSite.home.join ⟨"", []⟩).names = rootSite.home.names := rfl
  obtain ⟨assets, folders, hdiscover, hmetadata, hmodule, hdescribed⟩ :=
    found_after_create_iff_isVisible (by decide) (by decide) hroot haccepted hcreated
  refine ⟨w', assets, folders, hcreated, ?_, ?_, hmodule.mpr ?_, fun h => ?_⟩
  · exact hdiscover
  · exact hmetadata
  · refine ⟨by decide, fun s hs => ?_⟩
    cases hs
    decide
  · have hnone := ((hdescribed.mp h).2 "trees" rfl).2
    exact absurd hnone (by decide)

/-- An accepted asset that is made where there was nothing need not be found: in a subcategory its
name may be a reserved one. -/
theorem not_found_after_create_reserved :
    ¬∀ (site : Site) (p : Place) (tests shared : Bool) (root folder : Path) (w w' : World),
      (∀ n ∈ site.home.names, IsStep n) → w.tree.PlainNames →
      (site.home.join root).names = site.home.names → p.IsAccepted →
      w.tree.exists? (site.home.join p.folder).names = false →
      create p tests shared site w = (.ok folder, w') →
      ∃ assets folders,
        Asset.discover (root.below (typeFolder p.draft.type)) p.draft.type site w' = (.ok assets, w') ∧
        Asset.withMetadata (typeFolder p.draft.type) root site w' = (.ok folders, w') ∧
        (∃ a ∈ assets, a.category = p.draft.category ∧ a.subcategory = p.subcategory ∧
          a.name = p.draft.name) ∧
        Text.join "/" p.names ∈ folders := by
  intro h
  obtain ⟨w', hcreated⟩ : ∃ w',
      create (treeTrainer "tests") true false rootSite { tree := { folders := [[]] } } =
        (.ok ⟨"", ["components", "training", "trees", "tests"]⟩, w') :=
    ⟨_, Run.eq_ok_of_toOption (by decide +kernel)⟩
  have haccepted : (treeTrainer "tests").IsAccepted := by decide +kernel
  have hhome : ∀ n ∈ rootSite.home.names, IsStep n := by decide
  have hmade := made_of_create hhome haccepted hcreated
  obtain ⟨assets, folders, hdiscover, -, hfound, -⟩ := h rootSite (treeTrainer "tests") true false
    ⟨"", []⟩ _ _ _ hhome (by decide) rfl haccepted (by decide +kernel) hcreated
  rw [Asset.discover_of_isFolder _ (hmade.isFolder ["components"] rfl)] at hdiscover
  cases hdiscover
  have hvisible := (hmade.found_iff_isVisible hhome haccepted rfl (by decide)).mp hfound
  exact absurd (hvisible.2 "trees" rfl).1 (by decide)

end Skeleton

end AssetCatalog
