import AssetCatalog.Proofs.Frame
import AssetCatalog.Readme.Writer

/-!
# What pages and indexes are made from

Not from pages and indexes, so that writing them does not change what is to be written.
-/

namespace AssetCatalog.Readme

open Run Metadata Overlooks

def pageName : String := "README.md"

variable (b : Bool) (folder source : Path)

lemma read_overlooks {α : Type} (p : Path) {s : String} (hs : Path.ofText s = ⟨"", [s]⟩)
    (hn : s ≠ pageName) (hup : s ≠ "..") (f : String → Except Fault α) :
    Overlooks pageName (Run.readText (p.below s) >>= fun text => Run.ofExcept (f text)) :=
  (readText p hs hn hup).bind fun _ => .ofExcept _

lemma ofText_sourceName : Path.ofText (sourceName b) = ⟨"", [sourceName b]⟩ := by
  cases b <;> decide

lemma sourceName_ne : sourceName b ≠ pageName ∧ sourceName b ≠ ".." := by
  cases b <;> decide

lemma source_overlooks : Overlooks pageName (Asset.parseFile (folder.below (sourceName b))) :=
  read_overlooks folder (ofText_sourceName b) (sourceName_ne b).1 (sourceName_ne b).2 _

lemma findFunction_overlooks (type : String) :
    Overlooks pageName (findFunction (folder.below (sourceName b)) type) := by
  apply attempt_bind (source_overlooks b folder)
  · intro body
    exact .pure _
  · intro e
    exact (Overlooks.log _ _).bind fun _ => .pure _

lemma extractInterface_overlooks (function : String) :
    Overlooks pageName (extractInterface (folder.below (sourceName b)) function) := by
  refine .tryCatch ?_ ?_
  · apply (source_overlooks b folder).bind
    intro body
    cases definitionOf function body with
    | none => exact (Overlooks.log _ _).bind fun _ => .pure _
    | some d => exact (Overlooks.ofExcept _).map
  · intro e
    exact (Overlooks.log _ _).bind fun _ => .throw e

lemma metadata_overlooks : Overlooks pageName (loadYaml (folder.below fileName)) :=
  read_overlooks folder (by decide) (by decide) (by decide) _

lemma loadOwners_overlooks : Overlooks pageName (loadOwners source) := by
  apply (exists? source (by decide) (by decide) (by decide)).bind
  intro there
  apply Overlooks.ite
  · apply Overlooks.attempt_bind (read_overlooks source (by decide) (by decide) (by decide) _)
    · intro v
      exact .pure _
    · intro e
      exact (Overlooks.log _ _).bind fun _ => .pure _
  · exact .pure _

lemma loadFeatures_overlooks : Overlooks pageName (loadFeatures source) := by
  apply (exists? source (by decide) (by decide) (by decide)).bind
  intro there
  apply check
  refine .bind (.tryCatch (metadata_overlooks source) ?_) ?_
  · intro e
    exact (Overlooks.log _ _).bind fun _ => .throw e
  · intro v
    split
    · exact .throw _
    · apply (Overlooks.ofExcept _).bind
      intro named
      apply check
      exact (Overlooks.ofExcept _).bind fun _ => (loadOwners_overlooks source).bind fun _ =>
        Overlooks.ofExcept _

lemma loadExample_overlooks : Overlooks pageName (loadExample source) := by
  apply (exists? source (by decide) (by decide) (by decide)).bind
  intro there
  apply Overlooks.ite
  · apply Overlooks.attempt_bind
      (.readText source (by decide) (by decide) (by decide))
    · intro s
      exact .pure _
    · intro e
      exact (Overlooks.log _ _).bind fun _ => .pure _
  · exact .pure _

lemma preparePage_overlooks (d : Description) (features : Value) :
    Overlooks pageName (preparePage d source features) := by
  apply (Overlooks.ofExcept _).bind
  intro name
  apply (Overlooks.ofExcept _).bind
  intro title
  apply (Overlooks.ofExcept _).bind
  intro overview
  apply (loadExample_overlooks source).bind
  intro example_
  apply (Overlooks.ofExcept _).bind
  rintro ⟨links, features⟩
  have hrest (stability : String) : Overlooks pageName (do
      let features ← Run.ofExcept (formatFeatures features)
      pure { title, overview, rows := d.rows, output := d.output, example_, features, links,
             stability : Page }) :=
    (Overlooks.ofExcept _).bind fun _ => .pure _
  dsimp only
  split
  · exact (Overlooks.ofExcept _).map.bind hrest
  · exact (pure _).bind hrest

lemma generatePage_overlooks (d : Description) : Overlooks pageName (generatePage d source) :=
  (loadFeatures_overlooks source).bind fun features =>
    (preparePage_overlooks source d features).bind fun _ => .ofExcept _

lemma displayName_overlooks : Overlooks pageName (displayName folder) := by
  apply (metadata_overlooks folder).bind
  intro v
  have hrest (there : Bool) : Overlooks pageName (if there then Run.ofExcept (v.need "name")
      else throw (.invalid s!"Required `name` field not found in {(folder.below fileName).name}")) :=
    ite (.ofExcept _) (.throw _)
  exact .ite ((Overlooks.ofExcept _).bind hrest) ((pure _).bind hrest)

lemma indexItem_overlooks : Overlooks pageName (indexItem b folder) := by
  refine .tryCatch ?_ ?_
  · apply (findFunction_overlooks b folder _).bind
    intro found
    cases found with
    | none => exact (Overlooks.log _ _).bind fun _ => .pure _
    | some function =>
      apply (extractInterface_overlooks b folder function).bind
      intro interface
      cases interface with
      | none => exact (Overlooks.log _ _).bind fun _ => .pure _
      | some i =>
        exact (displayName_overlooks folder).bind fun _ =>
          (Overlooks.ofExcept _).bind fun _ => .pure _
  · intro e
    exact (Overlooks.log _ _).bind fun _ => .pure _

lemma indexItems_overlooks (folders : List Path) : Overlooks pageName (indexItems b folders) :=
  (mapM (indexItem_overlooks b) folders).bind fun _ => .pure _

def hasAsset (b : Bool) (site : Site) (t : Tree) (q : Path) : Bool :=
  t.exists? (site.home.join (q.below (sourceName b))).names &&
    t.exists? (site.home.join (q.below fileName)).names

lemma holdsAsset_apply (q : Path) (site : Site) (w : World) :
    holdsAsset b q site w = (.ok (hasAsset b site w.tree q), w) := by
  simp only [holdsAsset, bind_apply, exists?_apply, hasAsset]
  cases w.tree.exists? (site.home.join (q.below (sourceName b))).names <;> simp

lemma exists_source_same (site : Site) {t u : Tree} (q : Path) (h : t.SameBut pageName u) :
    u.exists? (site.home.join (q.below (sourceName b))).names =
      t.exists? (site.home.join (q.below (sourceName b))).names :=
  h.exists? ⟨_, _, Path.join_below site.home q (ofText_sourceName b), sourceName_ne b⟩

lemma hasAsset_same (site : Site) {t u : Tree} (q : Path) (h : t.SameBut pageName u) :
    hasAsset b site u q = hasAsset b site t q := by
  have hmetadata : u.exists? (site.home.join (q.below fileName)).names =
      t.exists? (site.home.join (q.below fileName)).names :=
    h.exists? ⟨_, _, Path.join_below site.home q (by decide), by decide, by decide⟩
  rw [hasAsset, hasAsset, exists_source_same b site q h, hmetadata]

lemma holdsAsset_overlooks (q : Path) : Overlooks pageName (holdsAsset b q) := by
  constructor
  · intro site w
    rw [holdsAsset_apply]
  · intro site w v h
    rw [holdsAsset_apply, holdsAsset_apply, hasAsset_same b site q h]

lemma listing_apply {x : Run Bool} {site : Site} {w : World} {found : Bool} (q : Path)
    (hx : x site w = (.ok found, w)) :
    (do if (← Run.isFolder q) && !skips q && !isReserved q then x else pure false : Run Bool) site w =
      (.ok (w.tree.isFolder (site.home.join q).names && !skips q && !isReserved q && found), w) := by
  rw [bind_of_eq (isFolder_apply q site w)]
  split
  · next h => rw [h, hx, Bool.true_and]
  · next h => rw [Bool.eq_false_iff.mpr h, Bool.false_and]; rfl

lemma assetFolders_overlooks : Overlooks pageName (assetFolders b folder) := by
  apply folders (by decide) (f := fun site t q => !skips q && !isReserved q && hasAsset b site t q)
  · intro q site w
    rw [listing_apply q (holdsAsset_apply b q site w)]
    simp only [Bool.and_assoc]
  · intro site t u q h
    rw [hasAsset_same b site q h]

lemma isSubcategory_overlooks : Overlooks pageName (isSubcategory b folder) := by
  unfold isSubcategory
  rw [← bind_assoc]
  refine .bind ?_ fun found => .pure _
  apply folders (by decide) (f := fun site t q => !skips q && !isReserved q &&
    t.exists? (site.home.join (q.below (sourceName b))).names)
  · intro q site w
    rw [listing_apply q (exists?_apply _ site w)]
    simp only [Bool.and_assoc]
  · intro site t u q h
    rw [exists_source_same b site q h]

lemma categoryFolders_overlooks : Overlooks pageName (categoryFolders b folder) := by
  unfold categoryFolders categoryFoldersAmong
  rw [← bind_assoc]
  refine .bind ?_ fun inside => ?_
  · apply folders (by decide) (f := fun _ _ q => !skips q)
    · intro q site w
      simp
    · exact fun _ _ _ _ _ => rfl
  · apply (filterM (holdsAsset_overlooks b) inside).bind
    intro assets
    exact (filterM (isSubcategory_overlooks b) _).bind fun _ => .pure _

lemma folderItems_of_notFolder {p : Path} {site : Site} {w : World}
    (h : w.tree.isFolder (site.home.join p).names = false) :
    ∃ e, folderItems p site w = (.error e, w) := by
  obtain ⟨e, he⟩ := Tree.namesIn_of_notFolder h
  exact ⟨e, by simp [folderItems, he]⟩

lemma checkExists_overlooks {α : Type} {x : Run α} (hx : Overlooks pageName x) (hfail : ∀ site w,
      w.tree.isFolder (site.home.join folder).names = false → (x site w).1.toOption = none) :
    Overlooks pageName (checkExists folder >>= fun _ => x) := by
  have hcheck : (checkExists folder >>= fun _ => x) = (do
      if !(← exists? folder) then throw (.invalid s!"Required directory not found: {folder.text}")
      x) := by
    funext site w
    rw [checkExists, bind_apply, bind_apply, bind_apply, exists?_apply]
    cases w.tree.exists? (site.home.join folder).names <;> rfl
  rw [hcheck]
  exact .exists_check folder hx hfail

lemma categoryIndex_overlooks : Overlooks pageName (categoryIndex folder b) := by
  apply checkExists_overlooks
  · apply (categoryFolders_overlooks b folder).bind
    intro found
    exact (indexItems_overlooks b found.1).bind fun _ => .pure _
  · intro site w h
    obtain ⟨e, he⟩ := folderItems_of_notFolder h
    rw [bind_apply, categoryFolders, bind_apply, he]
    rfl

lemma subcategoryIndex_overlooks : Overlooks pageName (subcategoryIndex folder b) := by
  apply checkExists_overlooks
  · apply (assetFolders_overlooks b folder).bind
    intro folders
    exact (indexItems_overlooks b folders).bind fun _ => .pure _
  · intro site w h
    obtain ⟨e, he⟩ := folderItems_of_notFolder h
    rw [bind_apply, assetFolders, bind_apply, he]
    rfl

end AssetCatalog.Readme
