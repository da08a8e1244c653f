import AssetCatalog.Change.Detection
import AssetCatalog.Proofs.ChangedAsset
import AssetCatalog.Proofs.CheckRuns
import AssetCatalog.Proofs.JsonReading
import AssetCatalog.Proofs.Wrapping

/-!
# Detecting changes

Which fetches go before a detection, and what the workflows read from its outputs.
-/

namespace AssetCatalog.Change

open List Text

open Run (bind_apply bind_of_eq bind_eq_ok rootSite)

variable {site : Site} {w w' : World}

/-! ## Fetching the base -/

lemma git_apply (words : List String) (site : Site) (w : World) :
    git words site w = (.ok (trim (w.reply 0).output), w.asked ("git" :: words)) := by
  rw [git, bind_of_eq (Run.command_apply _ _ _)]
  rfl

def isRemote (base : String) : Bool := startsWith base "origin/" && base ≠ "origin/HEAD"

def fullFetch (branch : String) : List String :=
  ["git", "fetch", "origin", s!"{branch}:refs/remotes/origin/{branch}"]

def shallowFetch (branch : String) : List String := ["git", "fetch", "--depth=100", "origin", branch]

/-- The fetches for a base, if the full one gets a reply. -/
def fetches (base : String) (reply : Reply) : List (List String) :=
  let branch := drop 7 base
  if isRemote base then
    fullFetch branch :: if trim reply.output = "" then [shallowFetch branch] else []
  else []

lemma mem_fetches_iff (base : String) (reply : Reply) :
    shallowFetch (drop 7 base) ∈ fetches base reply ↔ isRemote base ∧ trim reply.output = "" := by
  have hdiffer : shallowFetch (drop 7 base) ≠ fullFetch (drop 7 base) := by simp [shallowFetch, fullFetch]
  rw [fetches]
  split_ifs with hremote hblank <;> simp [*]

/-- It is what the full fetch prints, and not how it ends, that tells whether the shallow one follows:
right for those replies alone that print nothing exactly if they failed. -/
theorem fetchBranch_fetches (base : String) (site : Site) (w : World) :
    (fetchBranch base site w).1 = .ok () ∧
    w.Ran (fetches base (w.reply 0)) (fetchBranch base site w).2 ∧
    ((shallowFetch (drop 7 base) ∈ fetches base (w.reply 0) ↔
        isRemote base ∧ (w.reply 0).status ≠ 0) ↔
      (isRemote base → (trim (w.reply 0).output = "" ↔ (w.reply 0).status ≠ 0))) := by
  have hrun : (fetchBranch base site w).1 = .ok () ∧
      w.Ran (fetches base (w.reply 0)) (fetchBranch base site w).2 := by
    have hcondition : (startsWith base "origin/" && decide (base ≠ "origin/HEAD")) = isRemote base := rfl
    rw [fetchBranch, fetches]
    dsimp only
    rw [hcondition]
    cases isRemote base with
    | false => exact ⟨rfl, .refl w⟩
    | true =>
      have hfull := w.ran_asked (fullFetch (drop 7 base))
      rw [if_pos rfl, if_pos rfl, bind_of_eq (git_apply _ _ _)]
      split
      · rw [show (discard _ : Run Unit) = (fun _ => ()) <$> _ from rfl, Run.map_apply, git_apply]
        exact ⟨rfl, hfull.trans (World.ran_asked _ _)⟩
      · exact ⟨rfl, hfull⟩
  refine ⟨hrun.1, hrun.2, ?_⟩
  rw [mem_fetches_iff, and_congr_right_iff]

/-- A full fetch that succeeds and prints nothing is followed by a shallow one. -/
theorem fetchBranch_silent : ∃ w : World, (w.reply 0).status = 0 ∧
    (fetchBranch "origin/main" rootSite w).2.commands =
      [fullFetch "main", shallowFetch "main"] := by
  refine ⟨{ replies := [{ status := 0, output := "" }] }, rfl, ?_⟩
  decide +kernel

/-! ## What the workflows read -/

/-- The characters at which a shell cuts an unquoted value. -/
def isFieldEnd (c : Char) : Bool := c = ' ' || c = '\t' || c = '\n'

def fields (s : String) : List String := (wordsFrom isFieldEnd s.toList []).map String.ofList

lemma fields_join_iff (xs : List String) (hne : ∀ x ∈ xs, x ≠ "") :
    fields (join " " xs) = xs ↔ ∀ x ∈ xs, ∀ c ∈ x.toList, isFieldEnd c = false := by
  have hsplit : wordsFrom isFieldEnd (join " " xs).toList [] =
      (xs.map String.toList).flatMap fun w => wordsFrom isFieldEnd w [] := by
    rw [join, String.toList_intercalate]
    exact wordsFrom_intercalate (by decide) (by simp [isFieldEnd]) _
  constructor
  · intro h x hx
    rw [← h, fields] at hx
    obtain ⟨w, hw, rfl⟩ := mem_map.mp hx
    rw [String.toList_ofList]
    exact (isSolid_of_mem_wordsFrom _ [] (by simp) hw).2
  · intro h
    rw [fields, hsplit, flatMap_words, map_map]
    · simp [Function.comp_def]
    · intro w hw
      obtain ⟨x, hx, rfl⟩ := mem_map.mp hw
      exact ⟨by simpa using hne x hx, h x hx⟩

lemma changedFiles_ne_empty {base head : String} {skipDeleted : Bool} {files : List String}
    (h : changedFiles base head skipDeleted site w = (.ok files, w')) : ∀ f ∈ files, f ≠ "" := by
  obtain ⟨_, _, -, h⟩ := bind_eq_ok h
  obtain ⟨r, _, -, h⟩ := bind_eq_ok h
  cases r with
  | error e =>
    dsimp only at h
    split at h
    · obtain ⟨_, _, -, h⟩ := bind_eq_ok h
      cases h
    · cases h
  | ok output =>
    cases h
    simp

lemma applyFilter_subset {files kept : List String} {pattern : String}
    (h : applyFilter files pattern = .ok kept) : kept ⊆ files := by
  unfold applyFilter at h
  split at h
  · cases h
    exact Subset.refl _
  · split at h
    · cases h
      exact filter_sublist.subset
    · cases h
      exact Subset.refl _
    · cases h

lemma ne_empty_of_mem_assetsOf {root x : String} {files : List String} (h : x ∈ assetsOf root files) :
    x ≠ "" := by
  rw [assetsOf, sort, mem_mergeSort, mem_distinct, mem_filterMap] at h
  obtain ⟨file, -, h⟩ := h
  obtain ⟨category, second, third, rest, -, -, -, rfl⟩ := assetOf_eq_some_iff.mp h
  intro hempty
  have hslash : '/' ∈ "".toList := by
    rw [← hempty]
    split <;> simp [join]
  cases hslash

/-- The lists of a detection, each with the name of the output it is given by. -/
def Detection.lists (d : Detection) : List (String × List String) :=
  [("changed-components", d.components), ("changed-pipelines", d.pipelines),
    ("all-changed-files", d.all), ("filtered-changed-files", d.filtered)]

lemma ne_empty_of_mem_lists {base head filter : String} {skipDeleted : Bool} {d : Detection}
    (h : detect base head filter skipDeleted site w = (.ok d, w')) :
    ∀ list ∈ d.lists, ∀ x ∈ list.2, x ≠ "" := by
  obtain ⟨_, _, -, h⟩ := bind_eq_ok h
  obtain ⟨all, _, hall, h⟩ := bind_eq_ok h
  obtain ⟨filtered, _, hfiltered, h⟩ := bind_eq_ok h
  cases h
  rw [Run.ofExcept_apply] at hfiltered
  have hsubset := applyFilter_subset (Prod.mk.inj hfiltered).1
  have hne := changedFiles_ne_empty hall
  simp only [Detection.lists, forall_mem_cons, not_mem_nil, false_imp_iff, implies_true, and_true]
  exact ⟨fun _ => ne_empty_of_mem_assetsOf, fun _ => ne_empty_of_mem_assetsOf, hne,
    fun x hx => hne x (hsubset hx)⟩

/-- The fields of each joined output are the elements of its list exactly if no blank stands in one of
them. The lists that are also written as JSON and counted are read back from there in any case. -/
theorem outputs_read_back {base head filter : String} {skipDeleted : Bool} {d : Detection}
    (h : detect base head filter skipDeleted site w = (.ok d, w')) :
    (∀ list ∈ d.lists, ∃ value, d.outputs.lookup list.1 = some value ∧
      (fields value = list.2 ↔ ∀ x ∈ list.2, ∀ c ∈ x.toList, isFieldEnd c = false)) ∧
    ∀ list ∈ d.lists.take 2, (∃ value, d.outputs.lookup (list.1 ++ "-json") = some value ∧
      Json.parse value = .ok (.list (list.2.map .text))) ∧
      d.outputs.lookup (list.1 ++ "-count") = some (toString list.2.length) := by
  have hne := ne_empty_of_mem_lists h
  constructor
  · intro list hlist
    refine ⟨join " " list.2, ?_, fields_join_iff _ (hne list hlist)⟩
    simp only [Detection.lists, mem_cons, not_mem_nil, or_false] at hlist
    rcases hlist with rfl | rfl | rfl | rfl <;> rfl
  · intro list hlist
    simp only [Detection.lists, take_succ_cons, take_zero, mem_cons, not_mem_nil, or_false] at hlist
    rcases hlist with rfl | rfl <;> exact ⟨⟨_, rfl, Json.parse_compact_texts _⟩, rfl⟩

/-- Git reports two files; the folder of one has a blank in its name. -/
def blankWorld : World where
  replies := [{ output := "1f2e" },
    { output := "components/data/my loader/component.py\npipelines/data/sync/pipeline.py" }]

def blankDetection : Detection :=
  let files := ["components/data/my loader/component.py", "pipelines/data/sync/pipeline.py"]
  { components := ["components/data/my loader"], pipelines := ["pipelines/data/sync"]
    all := files, filtered := files }

lemma detect_blankWorld : detect "origin/HEAD" "HEAD" "" false rootSite blankWorld =
    (.ok blankDetection, (detect "origin/HEAD" "HEAD" "" false rootSite blankWorld).2) := by
  refine Prod.ext ?_ rfl
  decide +kernel

theorem outputs_read_back_blank :
    (∃ value, blankDetection.outputs.lookup "changed-pipelines" = some value ∧
      fields value = blankDetection.pipelines) ∧
    ∃ value, blankDetection.outputs.lookup "changed-components-json" = some value ∧
      Json.parse value = .ok (.list (blankDetection.components.map .text)) := by
  have hread := outputs_read_back detect_blankWorld
  obtain ⟨value, hvalue, hfields⟩ := hread.1 ("changed-pipelines", blankDetection.pipelines)
    (by simp [Detection.lists])
  exact ⟨⟨value, hvalue, hfields.mpr (by simp [blankDetection, isFieldEnd])⟩,
    (hread.2 ("changed-components", _) (by simp [Detection.lists])).1⟩

/-- A path with a blank is not read back from the output that lists it. -/
theorem outputs_cut_at_blank : ¬∀ (base head filter : String) (skipDeleted : Bool) (site : Site)
    (w w' : World) (d : Detection), detect base head filter skipDeleted site w = (.ok d, w') →
      ∀ list ∈ d.lists, (d.outputs.lookup list.1).map fields = some list.2 := by
  intro h
  have hcut := h _ _ _ _ _ _ _ _ detect_blankWorld ("changed-components", blankDetection.components)
    (by simp [Detection.lists])
  exact absurd hcut (by decide +kernel)

end AssetCatalog.Change
