import AssetCatalog.Proofs.PackageDiscovery
import AssetCatalog.TestRun

/-!
# The folders of tests of a target

A wider target finds what a narrower one does, unless it has a folder of tests of its own.
-/

namespace AssetCatalog

open List

namespace Gathering

variable {repository p : Path} {g : Gathering}

lemma isMember_append (h : isMember repository p) (k : Location) :
    isMember repository ⟨p.root, p.names ++ k⟩ := by
  rw [isMember, Path.relativeTo?] at h ⊢
  split at h
  · next hroot =>
    rcases hdrop : Path.dropNames repository.names p.names with _ | (_ | ⟨n, names⟩)
    · simp [hdrop] at h
    · simp [hdrop, belongs, Path.parts] at h
    · have hlonger : Path.dropNames repository.names (p.names ++ k) = some (n :: names ++ k) := by
        rw [Path.dropNames_eq_some_iff] at hdrop ⊢
        rw [hdrop, append_assoc]
      simpa [hroot, hdrop, hlonger, belongs, Path.parts] using h
  · simp at h

lemma mem_add (q : Path) :
    q ∈ (g.add repository p).found ↔ q ∈ g.found ∨ q = p ∧ isMember repository p := by
  rw [add]
  by_cases hp : isMember repository p = true <;> by_cases hfound : p ∈ g.found <;> grind

@[simp] lemma found_noteOutside : (g.noteOutside repository p).found = g.found := by
  rw [noteOutside]
  split <;> rfl

end Gathering

namespace TestRun

open Gathering

variable {t : Tree} {repository : Path} {target p : Path} {g : Gathering}

lemma mem_gatherFolder (q : Path) : q ∈ (gatherFolder t repository g p).found ↔
    q ∈ g.found ∨ q = p ∧ t.isFolder p.names ∧ isMember repository p := by
  rw [gatherFolder]
  split
  · next h => simp [mem_add, h]
  · next h => simp [h]

lemma mem_foldl_gatherFolder (ps : List Path) (q : Path) :
    q ∈ (ps.foldl (gatherFolder t repository) g).found ↔
      q ∈ g.found ∨ q ∈ ps ∧ t.isFolder q.names ∧ isMember repository q := by
  induction ps generalizing g with
  | nil => simp
  | cons p ps ih =>
    rw [foldl_cons, ih, mem_gatherFolder, mem_cons]
    grind

/-- A folder of tests below a target. -/
def IsBelow (t : Tree) (target : Path) (k : Location) : Prop :=
  k ∈ t.allBelow target.names ∧ k.getLast? = some folderName ∧ t.isFolder (target.names ++ k) = true

lemma gather_found (hfolder : t.isFolder target.names)
    (hmember : isMember repository target) (q : Path) :
    q ∈ (gather t repository [target]).found ↔
      if t.isFolder (target.below folderName).names then q = target.below folderName
      else ∃ k, IsBelow t target k ∧ q = ⟨target.root, target.names ++ k⟩ := by
  have hroot : searchRoot t target = target := by rw [searchRoot, if_pos hfolder]
  have hexists : t.exists? target.names := by rw [Tree.exists?, hfolder, Bool.or_true]
  have hdirect : target.below folderName = ⟨target.root, target.names ++ [folderName]⟩ := rfl
  have hown := isMember_append hmember [folderName]
  simp only [gather, foldl_cons, foldl_nil, gatherTarget, hroot, hexists, Bool.not_true,
    Bool.false_eq_true, if_false, hdirect, hown, Bool.and_true]
  split
  · simp [mem_add, hown]
  · rw [mem_foldl_gatherFolder, Path.sort, mem_mergeSort, named, mem_map]
    simp only [mem_filter, decide_eq_true_eq, IsBelow]
    constructor
    · rintro (h | ⟨⟨k, ⟨hk, hlast⟩, rfl⟩, hq, -⟩)
      · simp at h
      · exact ⟨k, ⟨hk, hlast, hq⟩, rfl⟩
    · rintro ⟨k, ⟨hk, hlast, hq⟩, rfl⟩
      exact .inr ⟨⟨k, ⟨hk, hlast⟩, rfl⟩, hq, isMember_append hmember k⟩

lemma exists_isBelow_of_found (hfolder : t.isFolder target.names)
    (hmember : isMember repository target) {q : Path}
    (hq : q ∈ (gather t repository [target]).found) :
    ∃ k, IsBelow t target k ∧ q = ⟨target.root, target.names ++ k⟩ := by
  rw [gather_found hfolder hmember] at hq
  split at hq
  · next hown =>
    exact ⟨[folderName], ⟨Package.singleton_mem_allBelow (by decide) hown, rfl, hown⟩, hq⟩
  · exact hq

lemma IsBelow.of_inner {rest k : Location} (hrest : ".." ∉ rest)
    (hinner : t.isFolder (target.names ++ rest))
    (h : IsBelow t ⟨target.root, target.names ++ rest⟩ k) : IsBelow t target (rest ++ k) := by
  obtain ⟨hbelow, hlast, hfolder⟩ := h
  have hk := (Package.mem_allBelow_append hrest hinner).mp hbelow
  refine ⟨hk.2, ?_, by rwa [append_assoc] at hfolder⟩
  rw [getLast?_append_of_ne_nil _ hk.1, hlast]

def testedCategory : Tree where
  folders := [[], ["components"], ["components", "data"], ["components", "data", "tests"],
    ["components", "data", "loader"], ["components", "data", "loader", "tests"]]

def loaderTests : Path := ⟨"/", ["components", "data", "loader", "tests"]⟩

lemma loader_found : loaderTests ∈
      (gather testedCategory ⟨"/", []⟩ [⟨"/", ["components", "data", "loader"]⟩]).found := by
  decide

end TestRun

end AssetCatalog
