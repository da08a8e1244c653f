import AssetCatalog.Import.Guard
import AssetCatalog.Proofs.AssetPlaces

/-!
# Spellings of the paths that are inspected

A path stands for the place that it leads to, unless it goes through a hidden name.
-/

namespace AssetCatalog

open List Path Text Tree

open Run (bind_apply bind_of_eq)

lemma le_append (a x y : String) : Text.le (a ++ x) (a ++ y) = Text.le x y := by
  have hlt : a ++ y < a ++ x ↔ y < x := by
    simp only [String.lt_iff_toList_lt, String.toList_append]
    induction a.toList with
    | nil => rfl
    | cons c cs ih => simpa using ih
  simp only [Text.le, hlt]

namespace Path

def onward (p : Path) (k : Location) : Path := { p with names := p.names ++ k }

lemma text_onward (p : Path) : ∃ start, ∀ k, k ≠ [] → (p.onward k).text = start ++ Text.join "/" k := by
  refine ⟨p.root ++ if p.names = [] then "" else Text.join "/" p.names ++ "/", fun k hk => ?_⟩
  have hne : (p.names ++ k).isEmpty = false := by simp [hk]
  rw [text, onward]
  simp only [hne]
  by_cases hp : p.names = []
  · simp [hp]
  · rw [if_neg hp, Text.join, String.intercalate_append_of_ne_nil hp hk]
    simp [Text.join, String.append_assoc]

lemma sortByText_onward (p : Path) {ks : List Location} (hks : ∀ k ∈ ks, k ≠ []) :
    sortByText (ks.map p.onward) =
      (ks.mergeSort fun a b => Text.le (Text.join "/" a) (Text.join "/" b)).map p.onward := by
  obtain ⟨start, hstart⟩ := text_onward p
  refine (map_mergeSort fun a ha b hb => ?_).symm
  rw [hstart a (hks a ha), hstart b (hks b hb), le_append]

lemma join_onward (home p : Path) (k : Location) :
    (home.join (p.onward k)).names = (home.join p).names ++ k := by
  by_cases hp : p.root = "" <;> simp [join, onward, isAbsolute, hp]

lemma resolve_onward (home p : Path) {k : Location} (hk : ".." ∉ k) :
    (p.onward k).resolve home = ⟨"/", (p.resolve home).names ++ k⟩ := by
  rw [resolve, join_onward, normalNames_append, normalNames_of_notMem hk]
  rfl

end Path

namespace Import

variable {site : Site} {t : Tree} {w : World} {l : Location} {p q : Path}

def sourcesBelow (t : Tree) (place : Location) : List Location :=
  (t.allBelow place).filter fun k => endsWith (k.getLast?.getD "") ".py"

def filesAt (site : Site) (t : Tree) (p : Path) : List Path :=
  let place := (site.home.join p).names
  if isHidden p then []
  else if t.isFile place && p.suffix = ".py" then [p]
  else if t.isFolder place then
    (sortByText ((sourcesBelow t place).map p.onward)).filter fun q => !isHidden q
  else []

lemma sourceFilesAt_apply (p : Path) (site : Site) (w : World) :
    sourceFilesAt p site w = (.ok (filesAt site w.tree p), w) := by
  have hsearch : Run.search p (fun n => endsWith n ".py") site w =
      (.ok (sortByText ((sourcesBelow w.tree (site.home.join p).names).map p.onward)), w) := rfl
  have hfile : Run.isFile p site w = (.ok (w.tree.isFile (site.home.join p).names), w) := rfl
  rw [sourceFilesAt, filesAt]
  split
  · rfl
  · rw [bind_of_eq hfile]
    split
    · rfl
    · rw [bind_apply, Run.isFolder_apply]
      dsimp only
      split
      · rw [bind_of_eq hsearch]
        rfl
      · rfl

lemma sourceFiles_apply (raws : List String) (site : Site) (w : World) : sourceFiles raws site w =
      (.ok (raws.flatMap fun s => filesAt site w.tree (ofText s)), w) := by
  rw [sourceFiles, bind_of_eq (Run.mapM_apply fun s _ => sourceFilesAt_apply _ site w)]
  rfl

/-- No name below a path starts with a point. -/
def NoneHiddenBelow (site : Site) (t : Tree) (p : Path) : Prop :=
  ∀ k ∈ t.allBelow (site.home.join p).names, ∀ n ∈ k, startsWith n "." = false

def SamePlace (site : Site) (t : Tree) (p q : Path) : Prop :=
  (t.follow [] (site.home.join p).names).toOption = (t.follow [] (site.home.join q).names).toOption

def filesOf (t : Tree) (l : Location) : List Path :=
  if l ∈ t.folders then
    ((sourcesBelow t l).mergeSort fun a b => Text.le (Text.join "/" a) (Text.join "/" b)).map
      fun k => ⟨"/", l ++ k⟩
  else if l ∈ t.files.map (·.1) ∧ (splitName (l.getLast?.getD "")).2 = ".py" then [⟨"/", l⟩]
  else []

lemma isHidden_onward (p : Path) (k : Location) :
    isHidden (p.onward k) = (isHidden p || k.any fun n => startsWith n ".") := by
  by_cases hp : p.root = "" <;> simp [isHidden, parts, onward, hp, Bool.or_assoc]

lemma ne_dots_of_visible {n : String} (h : startsWith n "." = false) : n ≠ ".." := by
  rintro rfl
  exact absurd h (by decide)

lemma name_eq_of_follow (hhome : t.isFolder site.home.names) (hp : isHidden p = false)
    (hl : t.follow [] (site.home.join p).names = .ok l) (hfile : l ∉ t.folders) :
    p.name = l.getLast?.getD "" := by
  obtain ⟨root, names⟩ := p
  rcases eq_nil_or_concat' names with rfl | ⟨ms, n, rfl⟩
  · by_cases hroot : root = ""
    · obtain ⟨k, hk, hfolder⟩ := (isFolder_iff t _).mp hhome
      rw [Path.join, if_neg (by simp [isAbsolute, hroot]), append_nil, hk] at hl
      cases hl
      exact absurd hfolder hfile
    · rw [Path.join, if_pos (by simp [isAbsolute, hroot])] at hl
      cases hl
      rfl
  · change isHidden (onward ⟨root, ms⟩ [n]) = false at hp
    change t.follow [] (site.home.join (onward ⟨root, ms⟩ [n])).names = .ok l at hl
    rw [isHidden_onward, Bool.or_eq_false_iff] at hp
    rw [join_onward] at hl
    obtain ⟨d, -, -, rfl⟩ :=
      follow_concat_eq_ok (ne_dots_of_visible (by simpa using hp.2)) hl
    simp [name]

lemma allBelow_of_follow {place : Location} (hl : t.follow [] place = .ok l) :
    t.allBelow place = t.allBelow l := by
  have hself := (follow_normalNames not_mem_nil rfl hl).2
  simp only [allBelow, hl, hself]

lemma ne_nil_of_mem_allBelow {place k : Location} (h : k ∈ t.allBelow place) : k ≠ [] := by
  rw [allBelow] at h
  split at h
  · next l hl =>
    split at h
    · next hfolder =>
      obtain ⟨m, hm, rfl⟩ := mem_map.mp h
      simp only [mem_filter, Bool.and_eq_true, isPrefixOf_iff_prefix, decide_eq_true_eq] at hm
      obtain ⟨-, ⟨rest, rfl⟩, hne⟩ := hm
      rw [drop_left]
      rintro rfl
      exact hne (append_nil l)
    · cases h
  · cases h

lemma map_resolve_below (hp : isHidden p = false) (hbelow : NoneHiddenBelow site t p)
    (hl : t.follow [] (site.home.join p).names = .ok l) :
    ((sortByText ((sourcesBelow t (site.home.join p).names).map p.onward)).filter
      fun q => !isHidden q).map (·.resolve site.home) =
    ((sourcesBelow t l).mergeSort fun a b => Text.le (Text.join "/" a) (Text.join "/" b)).map
      fun k => ⟨"/", l ++ k⟩ := by
  have hplace : (p.resolve site.home).names = l :=
    (follow_normalNames not_mem_nil rfl hl).1.symm
  have hsame : t.allBelow (site.home.join p).names = t.allBelow l := allBelow_of_follow hl
  have hne : ∀ k ∈ sourcesBelow t l, k ≠ [] := fun k hk =>
    ne_nil_of_mem_allBelow (mem_filter.mp hk).1
  have hvisible : ∀ k ∈ sourcesBelow t l, ∀ n ∈ k, startsWith n "." = false := fun k hk =>
    hbelow k (hsame ▸ (mem_filter.mp hk).1)
  rw [sourcesBelow, hsame, ← sourcesBelow, sortByText_onward p hne, filter_eq_self.mpr,
    map_map]
  · refine map_congr_left fun k hk => ?_
    rw [mem_mergeSort] at hk
    rw [← hplace]
    exact resolve_onward site.home p fun hdots => ne_dots_of_visible (hvisible k hk _ hdots) rfl
  · intro q hq
    obtain ⟨k, hk, rfl⟩ := mem_map.mp hq
    rw [mem_mergeSort] at hk
    simpa [isHidden_onward, hp] using hvisible k hk

lemma map_resolve_filesAt (hhome : t.isFolder site.home.names) (hp : isHidden p = false)
    (hbelow : NoneHiddenBelow site t p) :
    (filesAt site t p).map (·.resolve site.home) =
      ((t.follow [] (site.home.join p).names).toOption.map (filesOf t)).getD [] := by
  have hisFile := Package.isFile_iff t (site.home.join p).names
  have hisFolder := isFolder_iff t (site.home.join p).names
  rcases hl : t.follow [] (site.home.join p).names with e | l
  · simp only [hl] at hisFile hisFolder
    simp [filesAt, hisFile, hisFolder, Except.toOption]
  · change _ = filesOf t l
    simp only [hl, Except.ok.injEq, exists_eq_left'] at hisFile hisFolder
    rw [filesAt, filesOf]
    simp only [hp, Bool.false_eq_true, hisFolder]
    by_cases hfolder : l ∈ t.folders
    · have hnotFile : t.isFile (site.home.join p).names = false := by
        rw [Bool.eq_false_iff, Ne, hisFile]
        exact fun h => h.1 hfolder
      rw [hnotFile, Bool.false_and, if_neg Bool.false_ne_true, if_pos hfolder, if_pos hfolder]
      exact map_resolve_below hp hbelow hl
    · have hplace : p.resolve site.home = ⟨"/", l⟩ := by
        rw [resolve, ← (follow_normalNames not_mem_nil rfl hl).1]
      have hname := name_eq_of_follow hhome hp hl hfolder
      simp only [Bool.and_eq_true, hisFile, hfolder, not_false_eq_true, true_and, if_false,
        suffix, hname, decide_eq_true_eq]
      split
      · exact congrArg (fun q => [q]) hplace
      · rfl

lemma SamePlace.noneHiddenBelow (h : SamePlace site t p q) (hbelow : NoneHiddenBelow site t p) :
    NoneHiddenBelow site t q := by
  rcases hl : t.follow [] (site.home.join q).names with e | l
  · simp [NoneHiddenBelow, allBelow, hl]
  · rw [SamePlace, hl] at h
    rw [NoneHiddenBelow, allBelow_of_follow hl]
    rcases hk : t.follow [] (site.home.join p).names with e | k
    · rw [hk] at h
      cases h
    · rw [hk] at h
      cases h
      rwa [NoneHiddenBelow, allBelow_of_follow hk] at hbelow

lemma mapM_resolve {α : Type} (f : Path → Run α) (files : List Path) (site : Site) (w : World) :
    (files.mapM fun p => do f (← Run.resolve p)) site w =
      ((files.map (·.resolve site.home)).mapM f) site w := by
  induction files generalizing w with
  | nil => rfl
  | cons p files ih =>
    have hplace : Run.resolve p site w = (.ok (p.resolve site.home), w) := rfl
    rw [map_cons, mapM_cons, mapM_cons, bind_assoc, bind_of_eq hplace,
      bind_apply, bind_apply]
    split
    · rw [bind_apply, bind_apply, ih]
    · rfl

lemma checkFiles_congr {files files' : List Path}
    (h : files.map (·.resolve site.home) = files'.map (·.resolve site.home)) (e : Exceptions) :
    checkFiles e files site w = checkFiles e files' site w := by
  rw [checkFiles, checkFiles, bind_apply, bind_apply, mapM_resolve, mapM_resolve, h]

/-- Other spellings of the paths, none of which is passed over, lead to the same files and the same
outcome. -/
theorem inspect_respelled {raws raws' : List String}
    (hhome : w.tree.isFolder site.home.names = true)
    (hplaces : raws.Forall₂ (fun s s' => SamePlace site w.tree (Path.ofText s) (Path.ofText s')) raws')
    (hvisible : ∀ s ∈ raws ++ raws', isHidden (Path.ofText s) = false)
    (hbelow : ∀ s ∈ raws, NoneHiddenBelow site w.tree (Path.ofText s)) :
    (∃ files files', sourceFiles raws site w = (.ok files, w) ∧
      sourceFiles raws' site w = (.ok files', w) ∧
      files.map (·.resolve site.home) = files'.map (·.resolve site.home)) ∧
    ∀ config, inspect config raws site w = inspect config raws' site w := by
  have hsame : (raws.flatMap fun s => filesAt site w.tree (Path.ofText s)).map (·.resolve site.home) =
      (raws'.flatMap fun s => filesAt site w.tree (Path.ofText s)).map (·.resolve site.home) := by
    induction hplaces with
    | nil => rfl
    | @cons s s' raws raws' hplace _ ih =>
      have hs := map_resolve_filesAt hhome (hvisible s (by simp)) (hbelow s (by simp))
      have hs' := map_resolve_filesAt hhome (hvisible s' (by simp))
        (hplace.noneHiddenBelow (hbelow s (by simp)))
      have hrest : ∀ r ∈ raws ++ raws', isHidden (Path.ofText r) = false := by
        intro r hr
        rcases mem_append.mp hr with hr | hr
        · exact hvisible r (by simp [hr])
        · exact hvisible r (by simp [hr])
      rw [flatMap_cons, flatMap_cons, map_append, map_append, hs, hs', hplace,
        ih hrest fun r hr => hbelow r (by simp [hr])]
  refine ⟨⟨_, _, sourceFiles_apply raws site w, sourceFiles_apply raws' site w, hsame⟩, fun config => ?_⟩
  have hempty := congrArg List.isEmpty hsame
  rw [isEmpty_map, isEmpty_map] at hempty
  rw [inspect, inspect, bind_of_eq (sourceFiles_apply raws site w),
    bind_of_eq (sourceFiles_apply raws' site w), hempty]
  split
  · rfl
  · cases config with
    | none => exact checkFiles_congr hsame _
    | some raw =>
      dsimp only
      rw [bind_apply, bind_apply]
      split
      · exact checkFiles_congr hsame _
      · rfl

def jobTree : Tree where
  files := [(["work", "pkg", "load.py"], .text "import numpy\n")]
  folders := [[], ["work"], ["work", "pkg"]]

def jobSite : Site := { Run.rootSite with home := ⟨"/", ["work"]⟩ }

theorem inspect_relative_eq_absolute : ["pkg", "pkg/load.py"].Forall₂ (fun s s' =>
      SamePlace jobSite jobTree (Path.ofText s) (Path.ofText s')) ["/work/pkg", "/work/pkg/load.py"] ∧
    inspect none ["pkg", "pkg/load.py"] jobSite { tree := jobTree } =
      inspect none ["/work/pkg", "/work/pkg/load.py"] jobSite { tree := jobTree } := by
  have hplaces : ["pkg", "pkg/load.py"].Forall₂ (fun s s' =>
      SamePlace jobSite jobTree (Path.ofText s) (Path.ofText s'))
      ["/work/pkg", "/work/pkg/load.py"] := by
    unfold SamePlace
    decide +kernel
  have hbelow : ∀ s ∈ ["pkg", "pkg/load.py"], NoneHiddenBelow jobSite jobTree (Path.ofText s) := by
    unfold NoneHiddenBelow
    decide +kernel
  exact ⟨hplaces, (inspect_respelled (w := { tree := jobTree }) (by decide +kernel) hplaces
    (by decide +kernel) hbelow).2 none⟩

/-- The step up to the folder above counts as a name with a point in front: written with it, the path
is passed over and nothing is inspected. -/
theorem inspect_through_parent :
    SamePlace jobSite jobTree (Path.ofText "pkg") (Path.ofText "pkg/../pkg") ∧
    NoneHiddenBelow jobSite jobTree (Path.ofText "pkg") ∧
    (inspect none ["pkg"] jobSite { tree := jobTree }).1.toOption = some 1 ∧
    (inspect none ["pkg/../pkg"] jobSite { tree := jobTree }).1.toOption = some 0 := by
  unfold SamePlace NoneHiddenBelow
  decide +kernel

end Import

end AssetCatalog
