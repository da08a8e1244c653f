import AssetCatalog.Proofs.SkeletonGrowth

/-!
# The folder of an asset

Each asset has its own, and its files are written below the folder of its category only.
-/

namespace AssetCatalog

open List

open Path (IsStep)

/-- Files have changed at some places only. -/
def World.Confined (within : Location → Prop) (v w : World) : Prop :=
  ∀ l, w.tree.files.lookup l ≠ v.tree.files.lookup l → within l

instance {within : Location → Prop} : IsPreorder World (World.Confined within) where
  refl _ _ h := absurd rfl h
  trans u v w h h' l hl := by
    by_cases hv : v.tree.files.lookup l = u.tree.files.lookup l
    · exact h' l (hv ▸ hl)
    · exact h l hv

lemma Tree.files_makeFolders {t u : Tree} {d p : Location} (h : t.makeFolders d p = .ok u) :
    u.files = t.files := by
  induction p generalizing t d with
  | nil =>
    cases h
    rfl
  | cons n p ih =>
    simp only [makeFolders] at h
    split at h
    · exact ih h
    · cases h
    · exact (ih h :)

namespace Skeleton

open Place

variable {p : Place}

lemma respects_confined {site : Site} (hhome : ".." ∉ site.home.names) (p : Place) :
    p.Respects site (World.Confined fun l => ∃ n ms,
      l = site.home.names ++ [typeFolder p.draft.type, p.draft.category] ++ n :: ms) := by
  have hwrite (ns : List String) (text : String) (hns : ∀ n ∈ ns, IsStep n)
      (hbelow : ∃ n ms, ns = [typeFolder p.draft.type, p.draft.category] ++ n :: ms) :
      Run.Moves site (World.Confined fun l => ∃ n ms,
        l = site.home.names ++ [typeFolder p.draft.type, p.draft.category] ++ n :: ms) (fun _ => True)
        (Run.writeText ⟨"", ns⟩ text) := by
    refine Run.Moves.writeText (fun w u h l hl => ?_) fun _ _ _ => trivial
    rw [home_join] at h
    obtain ⟨k, hk, -, rfl⟩ := Tree.write_eq_ok h
    have hdots : ".." ∉ site.home.names ++ ns := by simpa [hhome] using dots_notMem hns
    obtain rfl : k = [] ++ _ := Tree.eq_append_of_follow hdots hk
    rw [nil_append] at hl
    obtain rfl : l = site.home.names ++ ns := by
      by_contra hne
      exact hl (by simp [Tree.lookup_putFile, hne])
    obtain ⟨n, ms, rfl⟩ := hbelow
    exact ⟨n, ms, by simp⟩
  refine ⟨fun ns _ _ => ?_, fun s n ms text _ _ hns => ?_, fun n ms text hns => ?_⟩
  · refine Run.Moves.makeFolders (fun w u h l hl => absurd ?_ hl) fun _ _ _ => trivial
    exact congrArg (List.lookup l) (Tree.files_makeFolders h)
  · exact writeNew_moves (hwrite _ text hns ⟨s, n :: ms, rfl⟩)
  · refine hwrite _ text hns ?_
    cases hgroup : p.group? <;> simp [names, hgroup]

lemma backslash_notMem (h : p.IsAccepted) (htype : p.draft.type ∈ ["component", "pipeline"]) :
    ∀ n ∈ p.names, '\\' ∉ n.toList := by
  intro n hn
  rw [names, h.group?_eq, mem_append, mem_append, mem_pair, Option.mem_toList, mem_singleton] at hn
  rcases hn with ((rfl | rfl) | hn) | rfl
  · simp only [mem_cons, not_mem_nil, or_false] at htype
    rcases htype with htype | htype <;> rw [htype] <;> decide
  · exact (isWord_of_checkCategory h.category).1.notMem (by decide)
  · exact (isWord_of_checkSubcategory (h.subcategory n hn)).1.notMem (by decide)
  · exact (isWord_of_checkName h.name).notMem (by decide)

lemma eq_of_names_eq {q : Place} (hp : p.IsAccepted) (hq : q.IsAccepted) (h : q.names = p.names) :
    q = p := by
  obtain ⟨⟨type, category, name⟩, group⟩ := p
  obtain ⟨⟨type', category', name'⟩, group'⟩ := q
  simp only [names, hp.group?_eq, hq.group?_eq, typeFolder] at h
  cases group <;> cases group' <;> simp_all

/-- Of the assets with accepted names, each has a folder of its own, of which every name is one step
down, and making it changes no file but below the folder of its category. -/
theorem folder_faithful (h : p.IsAccepted) (htype : p.draft.type ∈ ["component", "pipeline"]) :
    (∀ q : Place, q.IsAccepted → q.draft.type ∈ ["component", "pipeline"] → q.folder = p.folder →
      q = p) ∧
    p.folder =
      ⟨"", [p.draft.type ++ "s", p.draft.category] ++ p.subcategory.toList ++ [p.draft.name]⟩ ∧
    (∀ n ∈ p.folder.names, n ≠ "" ∧ n ≠ "." ∧ n ≠ ".." ∧ '/' ∉ n.toList ∧ '\\' ∉ n.toList) ∧
    ∀ (tests shared : Bool) (site : Site) (w : World), ".." ∉ site.home.names → ∀ l,
      (create p tests shared site w).2.tree.files.lookup l ≠ w.tree.files.lookup l →
      ∃ n ms, l = site.home.names ++ [p.draft.type ++ "s", p.draft.category] ++ n :: ms := by
  have hsteps := h.isStep htype
  refine ⟨fun q hq hqtype hfolder => ?_, ?_, ?_, fun tests shared site w hhome => ?_⟩
  · rw [folder_eq hsteps, folder_eq (hq.isStep hqtype)] at hfolder
    exact eq_of_names_eq h hq (Path.mk.inj hfolder).2
  · rw [folder_eq hsteps, names, h.group?_eq]
    rfl
  · rw [folder_eq hsteps]
    intro n hn
    obtain ⟨⟨hne, hslash⟩, hdot, hdots⟩ := hsteps n hn
    exact ⟨hne, hdot, hdots, hslash, backslash_notMem h htype n hn⟩
  · exact (create_moves (respects_confined hhome p) hsteps tests shared w).1

def csvLoader : Place where
  draft := { type := "component", category := "data", name := "loader" }
  subcategory := some "csv"

theorem folder_faithful_csvLoader : csvLoader.folder = ⟨"", ["components", "data", "csv", "loader"]⟩ ∧
    ∀ l, (create csvLoader true true Run.rootSite {}).2.tree.files.lookup l ≠ none →
      ∃ n ms, l = ["components", "data"] ++ n :: ms := by
  have hfaithful := folder_faithful (p := csvLoader) (by decide +kernel) (by decide)
  exact ⟨hfaithful.2.1, fun l hl => hfaithful.2.2.2 true true Run.rootSite {} (by decide) l hl⟩

end Skeleton

end AssetCatalog
