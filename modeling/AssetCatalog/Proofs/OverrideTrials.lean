import AssetCatalog.Proofs.ImageOverride
import AssetCatalog.Proofs.AssetLayout

/-!
# Trial runs of the tag override

A trial lists what the run rewrites, but a file that is reached twice it lists twice.
-/

namespace AssetCatalog.Image

open Asset Source Run Text List

variable {tag family : String} {verbose : Bool} {site : Site} {t : Tree} {u v w v' : World} {p q : Path}
  {o : Option String}

/-- What the file at a path is to be rewritten to, if it has images to change. -/
def wanted (tag family : String) (site : Site) (t : Tree) (p : Path) : Except Fault (Option String) := do
  checkTag tag
  let c ← t.read (site.home.join p).names
  let text ← c.lineText
  overrideText p tag family text

def place (site : Site) (t : Tree) (p : Path) : Except Fault Location :=
  t.follow [] (site.home.join p).names

lemma wanted_of_putFile {l : Location} {c : Content} (hne : place site t q ≠ .ok l)
    (h : wanted tag family site { t with files := Tree.putFile l c t.files } q = .ok o) :
    wanted tag family site t q = .ok o := by
  obtain ⟨_, htag, h⟩ := except_bind_eq_ok.mp h
  obtain ⟨c, hread, h⟩ := except_bind_eq_ok.mp h
  obtain ⟨k, hk, hfolder, hlookup⟩ := Tree.read_eq_ok hread
  have hplace : place site t q = .ok k := Tree.follow_of_folders_eq (by rfl) hk
  have hkl : k ≠ l := by
    rintro rfl
    exact hne hplace
  rw [Tree.lookup_putFile, if_neg hkl] at hlookup
  rw [wanted, htag, except_ok_bind, Tree.read_of_follow hplace hfolder hlookup]
  exact h

lemma overrideFile_trial (p : Path) (site : Site) (w : World) :
    overrideFile p tag family true site w = (wanted tag family site w.tree p, w) := by
  rw [overrideFile, wanted, bind_apply, ofExcept_apply]
  rcases checkTag tag with e | _
  · rfl
  dsimp only
  rw [bind_apply, readText_apply, except_ok_bind]
  rcases w.tree.read (site.home.join p).names with e | c
  · rfl
  dsimp only [Except.bind, bind]
  rcases c.lineText with e | text
  · rfl
  dsimp only
  rcases overrideText p tag family text with e | (_ | new) <;> rfl

lemma overrideFile_eq_ok (h : overrideFile p tag family false site v = (.ok o, v')) :
    wanted tag family site v.tree p = .ok o ∧ (v'.tree = v.tree ∨ ∃ l c, o.isSome ∧
      place site v.tree p = .ok l ∧ v'.tree = { v.tree with files := Tree.putFile l c v.tree.files }) := by
  obtain ⟨_, _, htag, h⟩ := bind_eq_ok h
  obtain ⟨text, _, hread, h⟩ := bind_eq_ok h
  obtain ⟨o', _, ho, h⟩ := bind_eq_ok h
  rw [ofExcept_apply, Prod.mk.injEq] at htag ho
  rw [readText_apply, Prod.mk.injEq] at hread
  obtain ⟨htag, rfl⟩ := htag
  obtain ⟨hread, rfl⟩ := hread
  obtain ⟨ho, rfl⟩ := ho
  obtain ⟨c, hread, hc⟩ := except_bind_eq_ok.mp hread
  have hwanted : wanted tag family site v.tree p = .ok o' := by
    rw [wanted, htag, except_ok_bind, hread, except_ok_bind, hc, except_ok_bind, ho]
  cases o' with
  | none =>
    cases h
    exact ⟨hwanted, .inl rfl⟩
  | some new =>
    obtain ⟨_, _, hwrite, h⟩ := bind_eq_ok h
    cases h
    obtain ⟨l, hl, -, htree⟩ := Tree.write_eq_ok (writeText_eq_ok hwrite)
    exact ⟨hwanted, .inr ⟨l, _, rfl, hl, htree⟩⟩

lemma overrideShown_eq_ok {b : Bool} (h : overrideShown tag family false verbose p site v = (.ok b, v')) :
    ∃ o v₁, overrideFile p tag family false site v = (.ok o, v₁) ∧ b = o.isSome ∧ v'.tree = v₁.tree := by
  obtain ⟨o, v₁, hfile, h⟩ := bind_eq_ok h
  refine ⟨o, v₁, hfile, ?_⟩
  dsimp only at h
  split at h <;> cases h <;> exact ⟨rfl, rfl⟩

lemma overrideShown_trial (tag family : String) (verbose : Bool) (p : Path) (site : Site) (w : World) :
    ∃ w', overrideShown tag family true verbose p site w =
      (Option.isSome <$> wanted tag family site w.tree p, w') ∧ w'.tree = w.tree := by
  rw [overrideShown, bind_apply, overrideFile_trial]
  rcases wanted tag family site w.tree p with e | o
  · exact ⟨w, rfl, rfl⟩
  · dsimp only
    split <;> exact ⟨_, rfl, rfl⟩

/-- If no file that is rewritten is reached again, then a run lists the files that a trial lists. -/
lemma filterM_trial {files ys : List Path}
    (hplaces : files.Pairwise fun p q =>
      (∃ new, wanted tag family site t p = .ok (some new)) → place site t p ≠ place site t q)
    (hfolders : v.tree.folders = t.folders)
    (hwanted : ∀ p ∈ files, ∀ o, wanted tag family site v.tree p = .ok o → wanted tag family site t p = .ok o)
    (hrun : files.filterM (overrideShown tag family false verbose) site v = (.ok ys, v'))
    (hu : u.tree = t) :
    ∃ u', files.filterM (overrideShown tag family true verbose) site u = (.ok ys, u') := by
  induction files generalizing v u ys with
  | nil =>
    cases hrun
    exact ⟨u, rfl⟩
  | cons p ps ih =>
    obtain ⟨hp, hps⟩ := pairwise_cons.mp hplaces
    obtain ⟨hwp, hwps⟩ := forall_mem_cons.mp hwanted
    rw [filterM_cons] at hrun ⊢
    obtain ⟨b, v₂, hshown, hbound⟩ := bind_eq_ok hrun
    obtain ⟨ys, v₃, hrest, hys⟩ := bind_eq_ok hbound
    cases hys
    obtain ⟨o, v₁, hfile, rfl, hv₂⟩ := overrideShown_eq_ok hshown
    obtain ⟨ho, htree⟩ := overrideFile_eq_ok hfile
    rw [← hv₂] at htree
    obtain ⟨u₁, hu₁, hsame⟩ := overrideShown_trial tag family verbose p site u
    rw [hu, hwp o ho] at hu₁
    have hnext : v₂.tree.folders = t.folders ∧ ∀ q ∈ ps, ∀ o, wanted tag family site v₂.tree q = .ok o →
        wanted tag family site t q = .ok o := by
      rcases htree with htree | ⟨l, c, hsome, hl, htree⟩ <;> rw [htree]
      · exact ⟨hfolders, hwps⟩
      · refine ⟨hfolders, fun q hq o' ho' => hwps q hq o' (wanted_of_putFile (fun hql => ?_) ho')⟩
        obtain ⟨new, rfl⟩ := Option.isSome_iff_exists.mp hsome
        have hplace {r : Path} (hr : place site v.tree r = .ok l) : place site t r = .ok l :=
          Tree.follow_of_folders_eq hfolders.symm hr
        exact hp q hq ⟨new, hwp _ ho⟩ ((hplace hl).trans (hplace hql).symm)
    obtain ⟨u₂, hu₂⟩ := ih hps hnext.1 hnext.2 hrest (hsame.trans hu)
    exact ⟨u₂, by rw [bind_of_eq hu₁, bind_of_eq hu₂]; rfl⟩

def filesBelow (site : Site) (t : Tree) (d : String) : List Path :=
  let p := Path.ofText d
  if t.exists? (site.home.join p).names then
    Path.sortByText (((t.allBelow (site.home.join p).names).filter fun k =>
      Text.endsWith (k.getLast?.getD "") ".py").map fun k => { p with names := p.names ++ k })
  else []

lemma sourceFiles_apply (directories : List String) (site : Site) (w : World) :
    sourceFiles directories site w = (.ok (directories.flatMap (filesBelow site w.tree)), w) := by
  rw [sourceFiles, bind_of_eq (mapM_apply (g := filesBelow site w.tree) fun d _ => ?_)]
  · rfl
  · rw [bind_apply, exists?_apply, filesBelow]
    dsimp only
    split <;> rfl

/-- A trial run leaves the tree, and lists the files that the run rewrites if the run reaches none of
them again. -/
theorem overrideAll_trial (directories : List String) (tag family : String) (verbose : Bool) (site : Site)
    (w : World) :
    (overrideAll directories tag family true verbose site w).2.tree = w.tree ∧
      ∀ listed, (overrideAll directories tag family false verbose site w).1 = .ok listed →
        ((directories.flatMap (filesBelow site w.tree)).Pairwise fun p q =>
          (∃ new, wanted tag family site w.tree p = .ok (some new)) →
            place site w.tree p ≠ place site w.tree q) →
        (overrideAll directories tag family true verbose site w).1 = .ok listed := by
  have hfiles := sourceFiles_apply directories site w
  constructor
  · rw [overrideAll, bind_of_eq hfiles]
    refine (Ensures.bind (I := fun v => v.tree = w.tree) (Ensures.filterM (P := fun _ => True) ?_)
      (Q := fun _ => True) fun _ _ => Ensures.pure trivial) site w rfl |>.1
    intro p _ site v hv
    obtain ⟨v', hshown, htree⟩ := overrideShown_trial tag family verbose p site v
    rw [hshown]
    exact ⟨htree.trans hv, fun _ _ _ => trivial⟩
  · intro listed hrun hplaces
    rw [overrideAll, bind_of_eq hfiles] at hrun ⊢
    obtain ⟨ys, v, hrun, hys⟩ := bind_eq_ok (Prod.ext hrun rfl)
    cases hys
    obtain ⟨u, htrial⟩ := filterM_trial hplaces rfl (fun _ _ _ h => h) hrun rfl
    rw [bind_of_eq htrial]
    rfl

def assetFolder : World where
  tree :=
    { folders := [[], ["a"]]
      files := [(["a", "x.py"], .text "@dsl.component(base_image=\"q/p-a:main\")\ndef a(): pass\n")] }

lemma filesBelow_assetFolder : filesBelow rootSite assetFolder.tree "a" = [⟨"", ["a", "x.py"]⟩] :=
  (congrArg Path.sortByText (by decide +kernel)).trans (mergeSort_singleton _)

theorem overrideAll_trial_assetFolder :
    (overrideAll ["a"] "v1" "q/p" true false rootSite assetFolder).1 = .ok ["a/x.py"] := by
  refine (overrideAll_trial ["a"] "v1" "q/p" false rootSite assetFolder).2 _ ?_ ?_
  · rw [overrideAll, bind_of_eq (sourceFiles_apply _ _ _), flatMap_singleton, filesBelow_assetFolder]
    decide +kernel
  · rw [flatMap_singleton, filesBelow_assetFolder]
    exact pairwise_singleton _ _

/-- A file that two directories lead to is rewritten once, but stands twice in the list of a trial. -/
theorem overrideAll_trial_repeats :
    (overrideAll ["a", "a"] "v1" "q/p" false false rootSite assetFolder).1 = .ok ["a/x.py"] ∧
      (overrideAll ["a", "a"] "v1" "q/p" true false rootSite assetFolder).1 =
        .ok ["a/x.py", "a/x.py"] := by
  rw [overrideAll, overrideAll, bind_of_eq (sourceFiles_apply _ _ _), bind_of_eq (sourceFiles_apply _ _ _),
    flatMap_cons, flatMap_singleton, filesBelow_assetFolder]
  decide +kernel

end AssetCatalog.Image
