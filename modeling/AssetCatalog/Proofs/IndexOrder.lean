import AssetCatalog.Proofs.AssetIndex

/-!
# The order in which a folder is listed

It shows in an index exactly if two lines of a list have one title.
-/

namespace AssetCatalog.Readme

open List IndexItem Path Text

open AssetCatalog.Run (Gives bind_of_eq rootSite)

/-! ## Lines that are sorted by title -/

section Lines

variable {α : Type} {title line : α → String} {x y : α} {xs ys : List α}

def byTitle (title : α → String) (xs : List α) : List α :=
  xs.mergeSort fun a b => le (title a) (title b)

lemma byTitle_eq_of_perm (h : xs.Perm ys) (hnodup : (xs.map title).Nodup) :
    byTitle title xs = byTitle title ys := by
  have hperm : (byTitle title xs).Perm (byTitle title ys) :=
    (mergeSort_perm _ _).trans (h.trans (mergeSort_perm _ _).symm)
  refine List.Perm.eq_of_pairwise ?_ (pairwise_mergeSort title xs)
    (pairwise_mergeSort title ys) hperm
  intro a b ha hb hab hba
  rw [byTitle, mem_mergeSort] at ha hb
  exact inj_on_of_nodup_map hnodup ha (h.mem_iff.mpr hb) (le_antisymm hab hba)

lemma byTitle_cons (title : α → String) (x : α) (xs : List α) :
    byTitle title (x :: xs) = (byTitle title xs).takeWhile (fun y => !Text.le (title x) (title y)) ++
      x :: (byTitle title xs).dropWhile fun y => !Text.le (title x) (title y) := by
  obtain ⟨before, after, hcons, hrest, hbefore⟩ := mergeSort_cons
    (fun a b c => Text.le_trans (title a) (title b) (title c))
    (fun a b => Text.le_total (title a) (title b)) x xs
  have hsorted := Text.pairwise_mergeSort title (x :: xs)
  rw [hcons] at hsorted
  have hafter : ∀ y ∈ after, le (title x) (title y) := fun y hy =>
    (le_iff _ _).mpr ((pairwise_cons.mp (pairwise_append.mp hsorted).2.1).1 y hy)
  rw [byTitle, byTitle, hcons, hrest, takeWhile_append_of_pos hbefore,
    dropWhile_append_of_pos hbefore]
  cases after with
  | nil => simp
  | cons y after => simp [hafter y mem_cons_self]

lemma byTitle_swap (h : title x = title y) (xs : List α) :
    ∃ before after, byTitle title (x :: y :: xs) = before ++ x :: y :: after ∧
      byTitle title (y :: x :: xs) = before ++ y :: x :: after := by
  have hself : le (title y) (title y) := (le_iff _ _).mpr le_rfl
  have hfirst : ∀ z ∈ (byTitle title xs).takeWhile (fun z => !Text.le (title y) (title z)),
      (!Text.le (title y) (title z)) := fun z hz =>
    mem_takeWhile_imp (p := fun z => !Text.le (title y) (title z)) hz
  refine ⟨(byTitle title xs).takeWhile fun z => !Text.le (title y) (title z),
    (byTitle title xs).dropWhile fun z => !Text.le (title y) (title z), ?_, ?_⟩
  · rw [byTitle_cons title x, byTitle_cons title y, h, takeWhile_append_of_pos hfirst,
      dropWhile_append_of_pos hfirst]
    simp [hself]
  · rw [byTitle_cons title y, byTitle_cons title x, h, takeWhile_append_of_pos hfirst,
      dropWhile_append_of_pos hfirst]
    simp [h, hself]

def titledText (title line : α → String) (xs : List α) : String :=
  String.join ((byTitle title xs).map line)

lemma line_comm_of_titledText_swap (h : title x = title y)
    (hlines : titledText title line (x :: y :: xs) = titledText title line (y :: x :: xs)) :
    line x ++ line y = line y ++ line x := by
  obtain ⟨before, after, hx, hy⟩ := byTitle_swap h xs
  rw [titledText, titledText, hx, hy] at hlines
  simp only [map_append, map_cons, String.join_append, String.join_cons,
    String.append_right_inj] at hlines
  rwa [← String.append_assoc, ← String.append_assoc, String.append_left_inj] at hlines

def lineStart (title folder : String) : String := "- [" ++ title ++ "](" ++ linkTo folder

lemma name_eq_of_lineStart {m n t a b : String} (hm : '/' ∉ m.toList) (hn : '/' ∉ n.toList)
    (h : lineStart t m ++ a = lineStart t n ++ b) : m = n := by
  have hname {m : String} (hm : '/' ∉ m.toList) (a : String) :
      (m ++ ("/README.md" ++ a)).toList.takeWhile (· != '/') = m.toList := by
    have hall : ∀ c ∈ m.toList, (c != '/') := by
      intro c hc
      rw [bne_iff_ne]
      rintro rfl
      exact hm hc
    rw [String.toList_append, takeWhile_append_of_pos hall]
    simp
  have hfolders : m ++ ("/README.md" ++ a) = n ++ ("/README.md" ++ b) := by
    simpa only [lineStart, linkTo, toString, String.append_assoc, String.append_right_inj] using h
  rw [← String.toList_inj, ← hname hm a, hfolders, hname hn b]

/-- What an entry adds to a list has a line with its title and a link to the entry. -/
def LinksTo (title line : α → String) (pick : Path → Option α) : Prop :=
  ∀ q x, pick q = some x → ∃ rest, line x = lineStart (title x) q.name ++ rest

lemma nodup_titles_of_swap {pick : Path → Option α} {entries : List Path}
    (hnames : (entries.map Path.name).Nodup) (hplain : ∀ q ∈ entries, IsPlainName q.name)
    (hlinks : LinksTo title line pick)
    (hsame : ∀ q r rest, entries.Perm (q :: r :: rest) → pick q ≠ none → pick r ≠ none →
      titledText title line ((q :: r :: rest).filterMap pick) =
        titledText title line ((r :: q :: rest).filterMap pick)) :
    ((entries.filterMap pick).map title).Nodup := by
  rw [List.Nodup, pairwise_map, pairwise_filterMap, pairwise_iff_forall_sublist]
  intro q r hsub x hx y hy htitle
  obtain ⟨rest, hperm⟩ := hsub.exists_perm_append
  have hlines := hsame q r rest hperm (by simp [hx]) (by simp [hy])
  rw [filterMap_cons_some hx, filterMap_cons_some hy, filterMap_cons_some hy,
    filterMap_cons_some hx] at hlines
  have hne : q.name ≠ r.name := by simpa using hnames.sublist (hsub.map Path.name)
  obtain ⟨a, ha⟩ := hlinks q x hx
  obtain ⟨b, hb⟩ := hlinks r y hy
  have hcomm := line_comm_of_titledText_swap htitle hlines
  rw [ha, hb, htitle, String.append_assoc, String.append_assoc] at hcomm
  exact hne (name_eq_of_lineStart (hplain q (hsub.subset (by simp))).2
    (hplain r (hsub.subset (by simp))).2 hcomm)

end Lines

/-! ## What an index says of a folder -/

section Items

variable {b : Bool} {site : Site} {w v : World} {p q : Path} {entries : List Path}

/-- What an index says of a folder, if it can read the asset there. -/
def itemAt (b : Bool) (site : Site) (w : World) (q : Path) : Option IndexItem :=
  (indexItem b q site w).1.toOption.join

lemma indexItem_gives : Gives (indexItem b q) site w.tree (itemAt b site w q) := by
  have hok : ∃ item, (indexItem b q site w).1 = .ok item := by
    rw [indexItem, Run.tryCatch_apply]
    split
    · exact ⟨_, rfl⟩
    · exact ⟨none, rfl⟩
  obtain ⟨item, hitem⟩ := hok
  rw [itemAt, hitem]
  exact (indexItem_overlooks b q).gives hitem

lemma link_itemAt {i : IndexItem} (h : itemAt b site w q = some i) : i.link = linkTo q.name := by
  have hitem : Run.Ensures (fun _ => True) (indexItem b q) fun item =>
      ∀ i ∈ item, i.link = linkTo q.name := by
    apply Run.Ensures.tryCatch
    · refine .bind (.any _) fun function _ => ?_
      cases function with
      | none => exact .bind (.any _) fun _ _ => .pure (by simp)
      | some function =>
        refine .bind (.any _) fun interface _ => ?_
        cases interface with
        | none => exact .bind (.any _) fun _ _ => .pure (by simp)
        | some i => exact .bind (.any _) fun _ _ => .bind (.any _) fun _ _ => .pure (by simp)
    · exact fun e => .bind (.any _) fun _ _ => .pure (by simp)
  have hread := (hitem site w trivial).2
  rw [itemAt] at h
  rcases hrun : (indexItem b q site w).1 with e | item
  · rw [hrun] at h
    cases h
  · rw [hrun] at h
    exact hread item hrun i h

lemma indexItems_gives (folders : List Path) : Gives (indexItems b folders) site w.tree
      (byTitle IndexItem.name (folders.filterMap (itemAt b site w))) := by
  refine (Gives.mapM (fun q => indexItem_gives) folders).bind ?_
  rw [filterMap_map, Function.id_comp]
  exact .pure _ site w.tree

def directItem (b : Bool) (site : Site) (w : World) (q : Path) : Option IndexItem :=
  if IsShown site w.tree q && hasAsset b site w.tree q then itemAt b site w q else none

/-- What the index of a category says of an entry that is a subcategory: its title and its link. -/
def groupItem (b : Bool) (site : Site) (w : World) (q : Path) : Option (String × String) :=
  if IsShown site w.tree q && !hasAsset b site w.tree q && groups b site w.tree q
  then some (formatTitle q.name, linkTo q.name) else none

def assetItem (b : Bool) (site : Site) (w : World) (q : Path) : Option IndexItem :=
  if IsShown site w.tree q && !isReserved q && hasAsset b site w.tree q then itemAt b site w q else none

def categoryIndexAmong (p : Path) (b : Bool) (entries : List Path) : Run String := do
  categoryIndexOf p b (← categoryFoldersAmong b entries)

def subcategoryIndexAmong (p : Path) (b : Bool) (entries : List Path) : Run String := do
  subcategoryIndexOf p b (← assetFoldersAmong b entries)

lemma categoryIndexAmong_ok (entries : List Path) :
    (categoryIndexAmong p b entries site w).1 = .ok (categoryText (formatTitle p.name) b
      (byTitle IndexItem.name (entries.filterMap (directItem b site w)))
      (byTitle Prod.fst (entries.filterMap (groupItem b site w)))) := by
  have hitems : (directAmong b site w.tree entries).filterMap (itemAt b site w) =
      entries.filterMap (directItem b site w) := filterMap_filter
  have hgroups : ((groupsAmong b site w.tree entries).map fun q => (formatTitle q.name, linkTo q.name)) =
      entries.filterMap (groupItem b site w) := by
    rw [← filterMap_eq_map, groupsAmong, filterMap_filter]
    rfl
  rw [categoryIndexAmong, bind_of_eq (categoryFoldersAmong_apply entries), ← hitems, ← hgroups]
  apply Gives.ok
  exact (indexItems_gives _).bind (.pure _ site w.tree)

lemma subcategoryIndexAmong_ok (entries : List Path) :
    (subcategoryIndexAmong p b entries site w).1 = .ok (subcategoryText (formatTitle p.name) b
      (byTitle IndexItem.name (entries.filterMap (assetItem b site w)))) := by
  have hitems : (assetsAmong b site w.tree entries).filterMap (itemAt b site w) =
      entries.filterMap (assetItem b site w) := filterMap_filter
  rw [subcategoryIndexAmong, bind_of_eq (assetFoldersAmong_apply entries), ← hitems]
  apply Gives.ok
  exact (indexItems_gives _).bind (.pure _ site w.tree)

lemma checkExists_apply (h : w.tree.isFolder (site.home.join p).names) :
    checkExists p site w = (.ok (), w) := by
  rw [checkExists, Run.bind_apply, Run.exists?_apply]
  simp [Tree.exists?, h]

lemma categoryIndex_apply (h : w.tree.isFolder (site.home.join p).names) :
    categoryIndex p b site w = categoryIndexAmong p b (itemsIn site w.tree p) site w := by
  rw [categoryIndex, bind_of_eq (checkExists_apply h), categoryFolders, bind_assoc,
    bind_of_eq (folderItems_apply h)]
  rfl

lemma subcategoryIndex_apply (h : w.tree.isFolder (site.home.join p).names) :
    subcategoryIndex p b site w = subcategoryIndexAmong p b (itemsIn site w.tree p) site w := by
  rw [subcategoryIndex, bind_of_eq (checkExists_apply h), assetFolders, bind_assoc,
    bind_of_eq (folderItems_apply h)]
  rfl

/-! ## Two orders of one folder -/

/-- Whatever the order in which the entries of a folder are listed, its index is one text. -/
def IsSettled (site : Site) (w : World) (p : Path) (index : Run String)
    (among : List Path → Run String) : Prop :=
  ∃ text, (index site w).1 = .ok text ∧
    ∀ entries, entries.Perm (itemsIn site w.tree p) → (among entries site w).1 = .ok text

lemma nodup_names_itemsIn (site : Site) (t : Tree) (p : Path) :
    ((itemsIn site t p).map Path.name).Nodup := by
  rw [itemsIn, sortByText, ((mergeSort_perm _ _).map Path.name).nodup_iff, map_map]
  have hname : Path.name ∘ p.item = id := funext fun n => Asset.name_item p n
  rw [hname, map_id]
  rcases hnames : t.namesIn (site.home.join p).names with e | names
  · exact nodup_nil
  · obtain ⟨-, -, -, hnodup, -⟩ := Tree.namesIn_eq_ok hnames
    exact hnodup

lemma plain_of_mem_itemsIn {t : Tree} (ht : t.PlainNames) (h : q ∈ itemsIn site t p) :
    IsPlainName q.name := by
  rw [itemsIn, sortByText, mem_mergeSort, mem_map] at h
  obtain ⟨n, hn, rfl⟩ := h
  rw [Asset.name_item]
  rcases hnames : t.namesIn (site.home.join p).names with e | names
  · rw [hnames] at hn
    cases hn
  · rw [hnames] at hn
    exact Tree.plain_of_mem_namesIn ht hnames hn

lemma linksTo_itemAt (c : Path → Bool) :
    LinksTo IndexItem.name itemLine fun q => if c q then itemAt b site w q else none := by
  intro q i hi
  rw [Option.ite_none_right_eq_some] at hi
  simp [itemLine, link_itemAt hi.2, lineStart, String.append_assoc, toString]

lemma linksTo_groupItem : LinksTo Prod.fst groupLine (groupItem b site w) := by
  intro q g hg
  rw [groupItem, Option.ite_none_right_eq_some, Option.some.injEq] at hg
  obtain ⟨-, rfl⟩ := hg
  simp [groupLine, lineStart, toString]

lemma isSettled_subcategory_iff (ht : w.tree.PlainNames)
    (hp : w.tree.isFolder (site.home.join p).names) :
    IsSettled site w p (subcategoryIndex p b) (subcategoryIndexAmong p b) ↔
      (((itemsIn site w.tree p).filterMap (assetItem b site w)).map IndexItem.name).Nodup := by
  simp only [IsSettled, subcategoryIndex_apply hp, subcategoryIndexAmong_ok, Except.ok.injEq]
  constructor
  · rintro ⟨text, -, hall⟩
    refine nodup_titles_of_swap (nodup_names_itemsIn site w.tree p)
      (fun q hq => plain_of_mem_itemsIn ht hq) (linksTo_itemAt _) fun q r rest hperm _ _ => ?_
    have hsame := (hall _ hperm.symm).trans (hall _ ((List.Perm.swap q r rest).trans hperm.symm)).symm
    simpa only [subcategoryText, titledText, String.append_right_inj] using hsame
  · intro hnodup
    refine ⟨_, rfl, fun entries hperm => ?_⟩
    rw [byTitle_eq_of_perm (hperm.filterMap _).symm hnodup]

lemma groupItem_eq_none (h : directItem b site w q ≠ none) : groupItem b site w q = none := by
  rw [directItem] at h
  rw [groupItem, if_neg]
  intro hgroup
  simp only [Bool.and_eq_true, Bool.not_eq_true'] at hgroup
  simp [hgroup.1.2] at h

lemma directItem_eq_none (h : groupItem b site w q ≠ none) : directItem b site w q = none := by
  by_contra hdirect
  exact h (groupItem_eq_none hdirect)

lemma categoryText_of_ne_nil {gs : List (String × String)} (t : String) (b : Bool)
    (items : List IndexItem) (h : gs ≠ []) :
    categoryText t b items (byTitle Prod.fst gs) =
      categoryText t b items [] ++ ("## Subcategories\n\n" ++ titledText Prod.fst groupLine gs) := by
  have hne : (byTitle Prod.fst gs).isEmpty = false := by
    rw [isEmpty_eq_false_iff, ← length_pos_iff, byTitle, length_mergeSort]
    exact length_pos_iff.mpr h
  simp only [categoryText, hne, titledText, isEmpty_nil, Bool.false_eq_true, if_false, if_true,
    String.append_empty]

lemma isSettled_category_iff (ht : w.tree.PlainNames)
    (hp : w.tree.isFolder (site.home.join p).names) :
    IsSettled site w p (categoryIndex p b) (categoryIndexAmong p b) ↔
      (((itemsIn site w.tree p).filterMap (directItem b site w)).map IndexItem.name).Nodup ∧
      (((itemsIn site w.tree p).filterMap (groupItem b site w)).map Prod.fst).Nodup := by
  simp only [IsSettled, categoryIndex_apply hp, categoryIndexAmong_ok, Except.ok.injEq]
  constructor
  · rintro ⟨text, -, hall⟩
    have hswap (q r : Path) (rest : List Path) (hperm : (itemsIn site w.tree p).Perm (q :: r :: rest)) :=
      (hall _ hperm.symm).trans (hall _ ((List.Perm.swap q r rest).trans hperm.symm)).symm
    have hnames := nodup_names_itemsIn site w.tree p
    have hplain := fun q (hq : q ∈ itemsIn site w.tree p) => plain_of_mem_itemsIn ht hq
    constructor
    · refine nodup_titles_of_swap hnames hplain (linksTo_itemAt _) fun q r rest hperm hq hr => ?_
      have hsame := hswap q r rest hperm
      rw [filterMap_cons_none (groupItem_eq_none hq), filterMap_cons_none (groupItem_eq_none hr),
        filterMap_cons_none (groupItem_eq_none hr), filterMap_cons_none (groupItem_eq_none hq)]
        at hsame
      simpa only [categoryText, titledText, String.append_right_inj, String.append_left_inj] using hsame
    · refine nodup_titles_of_swap hnames hplain linksTo_groupItem fun q r rest hperm hq hr => ?_
      obtain ⟨x, hx⟩ := Option.ne_none_iff_exists'.mp hq
      obtain ⟨y, hy⟩ := Option.ne_none_iff_exists'.mp hr
      have hsame := hswap q r rest hperm
      rw [filterMap_cons_none (directItem_eq_none hq),
        filterMap_cons_none (directItem_eq_none hr),
        filterMap_cons_none (directItem_eq_none hr),
        filterMap_cons_none (directItem_eq_none hq),
        categoryText_of_ne_nil _ _ _ (by simp [hx]), categoryText_of_ne_nil _ _ _ (by simp [hy])] at hsame
      simpa only [String.append_right_inj] using hsame
  · rintro ⟨hitems, hgroups⟩
    refine ⟨_, rfl, fun entries hperm => ?_⟩
    rw [byTitle_eq_of_perm (hperm.filterMap _).symm hitems,
      byTitle_eq_of_perm (hperm.filterMap _).symm hgroups]

/-- The index of a folder does not depend on the order in which its entries are listed exactly if the
titles in each of its lists are different. -/
theorem isSettled_iff_nodup_titles (ht : w.tree.PlainNames)
    (hp : w.tree.isFolder (site.home.join p).names = true) (b : Bool) :
    (IsSettled site w p (categoryIndex p b) (categoryIndexAmong p b) ↔
      (((itemsIn site w.tree p).filterMap (directItem b site w)).map IndexItem.name).Nodup ∧
      (((itemsIn site w.tree p).filterMap (groupItem b site w)).map Prod.fst).Nodup) ∧
    (IsSettled site w p (subcategoryIndex p b) (subcategoryIndexAmong p b) ↔
      (((itemsIn site w.tree p).filterMap (assetItem b site w)).map IndexItem.name).Nodup) :=
  ⟨isSettled_category_iff ht hp, isSettled_subcategory_iff ht hp⟩

def shelf (name other : String) : Tree where
  files := [(["data", "a", "component.py"], .text "@component\ndef f():\n  \"F.\"\n"),
    (["data", "a", "metadata.yaml"], .text s!"name: {name}\n"),
    (["data", "a-b", "component.py"], .text "@component\ndef f():\n  \"F.\"\n"),
    (["data", "a-b", "metadata.yaml"], .text s!"name: {other}\n"),
    (["data", "text", "read", "component.py"], .text "")]
  folders := [[], ["data"], ["data", "a"], ["data", "a-b"], ["data", "text"], ["data", "text", "read"]]

lemma itemsIn_shelf (name other : String) : itemsIn rootSite (shelf name other) ⟨"", ["data"]⟩ =
    [⟨"", ["data", "a"]⟩, ⟨"", ["data", "a-b"]⟩, ⟨"", ["data", "text"]⟩] := by
  cbv

theorem isSettled_shelf : (shelf "load" "clean").PlainNames ∧
    IsSettled rootSite { tree := shelf "load" "clean" } ⟨"", ["data"]⟩
      (categoryIndex ⟨"", ["data"]⟩ true) (categoryIndexAmong ⟨"", ["data"]⟩ true) := by
  have hplain : (shelf "load" "clean").PlainNames := by decide +kernel
  refine ⟨hplain, (isSettled_iff_nodup_titles (w := { tree := shelf "load" "clean" }) hplain
    (by decide +kernel) true).1.mpr ?_⟩
  rw [itemsIn_shelf]
  decide +kernel

def sameIndex (m n : String) : String :=
  "# Data Components\n\nThis directory contains components in the **Data** category:\n\n" ++
    s!"- [Same](./{m}/README.md): F.\n- [Same](./{n}/README.md): F.\n" ++
    "## Subcategories\n\n- [Text](./text/README.md)\n"

lemma categoryIndexAmong_shelf {m n : String} (h : (m, n) ∈ [("a", "a-b"), ("a-b", "a")]) :
    (categoryIndexAmong ⟨"", ["data"]⟩ true
      [⟨"", ["data", m]⟩, ⟨"", ["data", n]⟩, ⟨"", ["data", "text"]⟩] rootSite
      { tree := shelf "same" "same" }).1 = .ok (sameIndex m n) := by
  have hitems : ∀ x ∈ [("a", "a-b"), ("a-b", "a")],
      [⟨"", ["data", x.1]⟩, ⟨"", ["data", x.2]⟩, ⟨"", ["data", "text"]⟩].filterMap
        (directItem true rootSite { tree := shelf "same" "same" }) =
      [⟨"Same", "F.", linkTo x.1⟩, ⟨"Same", "F.", linkTo x.2⟩] := by decide +kernel
  have hgroups : ∀ x ∈ [("a", "a-b"), ("a-b", "a")],
      [⟨"", ["data", x.1]⟩, ⟨"", ["data", x.2]⟩, ⟨"", ["data", "text"]⟩].filterMap
        (groupItem true rootSite { tree := shelf "same" "same" }) =
      [("Text", linkTo "text")] := by decide +kernel
  have hsorted (l l' : String) : byTitle IndexItem.name [⟨"Same", "F.", l⟩, ⟨"Same", "F.", l'⟩] =
      [⟨"Same", "F.", l⟩, ⟨"Same", "F.", l'⟩] := by
    apply mergeSort_of_pairwise
    simp [(le_iff "Same" "Same").mpr le_rfl]
  rw [categoryIndexAmong_ok, hitems _ h, hgroups _ h, hsorted, byTitle, mergeSort_singleton]
  simp only [mem_cons, not_mem_nil, or_false] at h
  rcases h with ⟨rfl, rfl⟩ | ⟨rfl, rfl⟩
  · exact congrArg Except.ok (by decide +kernel)
  · exact congrArg Except.ok (by decide +kernel)

/-- Two components with one display name stand in the index in the order in which they are listed. -/
theorem index_depends_on_order :
    [⟨"", ["data", "a-b"]⟩, ⟨"", ["data", "a"]⟩, ⟨"", ["data", "text"]⟩].Perm
      (itemsIn rootSite (shelf "same" "same") ⟨"", ["data"]⟩) ∧
    (categoryIndex ⟨"", ["data"]⟩ true rootSite { tree := shelf "same" "same" }).1 =
      .ok (sameIndex "a" "a-b") ∧
    (categoryIndexAmong ⟨"", ["data"]⟩ true
      [⟨"", ["data", "a-b"]⟩, ⟨"", ["data", "a"]⟩, ⟨"", ["data", "text"]⟩] rootSite
      { tree := shelf "same" "same" }).1 = .ok (sameIndex "a-b" "a") ∧
    sameIndex "a" "a-b" ≠ sameIndex "a-b" "a" := by
  refine ⟨?_, ?_, categoryIndexAmong_shelf (by decide), by decide +kernel⟩
  · rw [itemsIn_shelf]
    exact .swap ..
  · rw [categoryIndex_apply (by decide +kernel), itemsIn_shelf]
    exact categoryIndexAmong_shelf (by decide)

end Items

end AssetCatalog.Readme
