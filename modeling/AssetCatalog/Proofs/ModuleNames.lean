import AssetCatalog.Compile.Check
import AssetCatalog.Proofs.Tree

/-!
# The names under which modules are loaded

Slashes, hyphens and points of a path all become underscores, so that modules can share a name.
-/

namespace AssetCatalog.Compile

open List Text

variable {repository file : Path} {files : List Path} {names : List String} {stem : String}

/-- The place of a file in the repository, without the end of its name. -/
def stemOf? (repository file : Path) : Option String :=
  ((file.relativeTo? repository).bind Path.withoutSuffix?).map Path.text

def blur (c : Char) : Char := if c = '/' ∨ c = '-' ∨ c = '.' then '_' else c

/-- The place of a file, with what the name of its module keeps of it. -/
def blurredStem? (repository file : Path) : Option String :=
  (stemOf? repository file).map (String.map blur)

/-- The modules that are loaded, the latest first: it is found under its name. -/
def loaded (repository : Path) (files : List Path) : Except Fault (List (String × Path)) :=
  files.foldlM (fun table file => do pure ((← moduleName repository file, file) :: table)) []

lemma toList_namePart {s : String} (hs : '/' ∉ s.toList) : (namePart s).toList = s.toList.map blur := by
  have hhyphen : (replace "-" "_" s).toList = _ := toList_replace '-' '_' s
  refine (toList_replace '.' '_' (replace "-" "_" s)).trans ?_
  rw [hhyphen, map_map]
  apply map_congr_left
  intro c hc
  have hslash : c ≠ '/' := ne_of_mem_of_not_mem hc hs
  by_cases h : c = '-' <;> simp [blur, h, hslash]

lemma toList_join_namePart (h : ∀ n ∈ names, '/' ∉ n.toList) :
    (join "_" (names.map namePart)).toList = (join "/" names).toList.map blur := by
  induction names with
  | nil => rfl
  | cons n names ih =>
    obtain ⟨hn, hnames⟩ := forall_mem_cons.mp h
    cases names with
    | nil => simpa [join] using toList_namePart hn
    | cons m names =>
      rw [map_cons, map_cons, join_cons_cons, join_cons_cons, ← map_cons, String.toList_append,
        ih hnames, String.toList_append, toList_namePart hn]
      simp [blur]

lemma toList_splitName_subset (name : String) : (Path.splitName name).1.toList ⊆ name.toList := by
  unfold Path.splitName
  split
  · rename_i h
    split
    · exact Subset.refl _
    · rw [(cutLast?_eq_some_iff.mp h).1]
      exact subset_append_left _ _
  · exact Subset.refl _

lemma exists_names (hstem : stemOf? repository file = some stem)
    (hfile : ∀ n ∈ file.names, '/' ∉ n.toList) :
    ∃ names, (file.relativeTo? repository).bind Path.withoutSuffix? = some ⟨"", names⟩ ∧
      stem = join "/" names ∧ ∀ n ∈ names, '/' ∉ n.toList := by
  obtain ⟨p, hp, rfl⟩ := Option.map_eq_some_iff.mp hstem
  obtain ⟨q, hq, hp'⟩ := Option.bind_eq_some_iff.mp hp
  obtain ⟨_, hq⟩ := Option.ite_none_right_eq_some.mp hq
  obtain ⟨names, hnames, rfl⟩ := Option.map_eq_some_iff.mp hq
  obtain ⟨hne, hp'⟩ := Option.ite_none_left_eq_some.mp hp'
  cases hp'
  rw [Path.dropNames_eq_some_iff.mp hnames, forall_mem_append] at hfile
  refine ⟨_, hp, by simp [Path.text], fun n hn => ?_⟩
  rcases mem_append.mp hn with hn | hn
  · exact hfile.2 n (dropLast_subset _ hn)
  · obtain rfl := mem_singleton.mp hn
    have hlast : names ≠ [] := by simpa using hne
    refine fun hslash => hfile.2 _ (getLast_mem hlast) (toList_splitName_subset _ ?_)
    rwa [Path.stem, Path.name, getLast?_eq_some_getLast hlast] at hslash

lemma moduleName_eq (hstem : stemOf? repository file = some stem)
    (hfile : ∀ n ∈ file.names, '/' ∉ n.toList) :
    moduleName repository file = .ok ("compile_check_" ++ stem.map blur) := by
  obtain ⟨names, hnames, rfl, hslash⟩ := exists_names hstem hfile
  have hjoin : join "_" (names.map namePart) = (join "/" names).map blur := by
    rw [← String.toList_inj, toList_join_namePart hslash, String.toList_map]
  rw [moduleName, hnames, ← hjoin]
  rfl

lemma foldlM_loaded {name : Path → String} (h : ∀ f ∈ files, moduleName repository f = .ok (name f))
    (table : List (String × Path)) :
    files.foldlM (fun table file => do pure ((← moduleName repository file, file) :: table)) table =
      .ok ((files.map fun f => (name f, f)).reverse ++ table) := by
  induction files generalizing table with
  | nil => rfl
  | cons f files ih =>
    obtain ⟨hf, hfiles⟩ := forall_mem_cons.mp h
    rw [foldlM_cons, hf]
    exact (ih hfiles _).trans (by simp)

lemma lookup_reverse_iff {name : Path → String} :
    (∀ f ∈ files, (files.map fun f => (name f, f)).reverse.lookup (name f) = some f) ↔
      ∀ f ∈ files, ∀ g ∈ files, name f = name g → f = g := by
  constructor
  · intro h f hf g hg heq
    have hlookup := h f hf
    rw [heq, h g hg] at hlookup
    exact (Option.some.inj hlookup).symm
  · intro h f hf
    have hmem : (name f, f) ∈ (files.map fun f => (name f, f)).reverse :=
      mem_reverse.mpr (mem_map_of_mem hf)
    rcases hlookup : (files.map fun f => (name f, f)).reverse.lookup (name f) with _ | g
    · have hnone := lookup_eq_none_iff.mp hlookup _ hmem
      simp at hnone
    · obtain ⟨l, r, hsplit, -⟩ := lookup_eq_some_iff.mp hlookup
      obtain ⟨g', hg', heq⟩ := mem_map.mp (mem_reverse.mp (hsplit ▸ mem_append_cons_self))
      obtain ⟨hname, rfl⟩ := Prod.mk.inj heq
      rw [h f hf g' hg' hname.symm]

/-- Two modules have one name exactly if their places are the same up to slashes, hyphens, points and
underscores. After all modules have been loaded each is found under its name, exactly if no two places
are the same in this way. -/
theorem loaded_keeps_iff {repository : Path} {files : List Path}
    (hfiles : ∀ f ∈ files, (stemOf? repository f).isSome = true ∧ ∀ n ∈ f.names, '/' ∉ n.toList) :
    (∀ f ∈ files, ∀ g ∈ files, moduleName repository f = moduleName repository g ↔
      blurredStem? repository f = blurredStem? repository g) ∧
    ∃ table, loaded repository files = .ok table ∧
      ((∀ f ∈ files, ∃ name, moduleName repository f = .ok name ∧ table.lookup name = some f) ↔
        ∀ f ∈ files, ∀ g ∈ files, blurredStem? repository f = blurredStem? repository g → f = g) := by
  let name (f : Path) : String := "compile_check_" ++ (blurredStem? repository f).getD ""
  have hname : ∀ f ∈ files, moduleName repository f = .ok (name f) := by
    intro f hf
    obtain ⟨stem, hstem⟩ := Option.isSome_iff_exists.mp (hfiles f hf).1
    simp only [moduleName_eq hstem (hfiles f hf).2, name, blurredStem?, hstem, Option.map_some,
      Option.getD_some]
  have hsame : ∀ f ∈ files, ∀ g ∈ files,
      name f = name g ↔ blurredStem? repository f = blurredStem? repository g := by
    intro f hf g hg
    obtain ⟨stem, hstem⟩ := Option.isSome_iff_exists.mp (hfiles f hf).1
    obtain ⟨stem', hstem'⟩ := Option.isSome_iff_exists.mp (hfiles g hg).1
    simp only [name, blurredStem?, hstem, hstem', Option.map_some, Option.getD_some, Option.some.injEq]
    rw [← String.toList_inj, String.toList_append, String.toList_append, append_cancel_left_eq,
      String.toList_inj]
  refine ⟨fun f hf g hg => ?_, _, foldlM_loaded hname [], ?_⟩
  · rw [hname f hf, hname g hg, Except.ok.injEq, hsame f hf g hg]
  · have hfound : (∀ f ∈ files, ∃ n, moduleName repository f = .ok n ∧
        ((files.map fun f => (name f, f)).reverse ++ []).lookup n = some f) ↔
        ∀ f ∈ files, (files.map fun f => (name f, f)).reverse.lookup (name f) = some f := by
      refine forall₂_congr fun f hf => ?_
      rw [hname f hf, append_nil]
      simp
    rw [hfound, lookup_reverse_iff]
    exact forall₂_congr fun f hf => forall₂_congr fun g hg => imp_congr_left (hsame f hf g hg)

example : moduleName ⟨"/", []⟩ ⟨"/", ["a.b", "c.py"]⟩ = .ok "compile_check_a_b_c" := by decide +kernel

def moduleFile (folder : String) : Path := ⟨"/", ["components", folder, "component.py"]⟩

theorem loaded_keeps_iff_points :
    (∀ f ∈ [moduleFile "a.b", moduleFile "a_c"],
      (stemOf? ⟨"/", []⟩ f).isSome = true ∧ ∀ n ∈ f.names, '/' ∉ n.toList) ∧
    ∃ table, loaded ⟨"/", []⟩ [moduleFile "a.b", moduleFile "a_c"] = .ok table ∧
      table.lookup "compile_check_components_a_b_component" = some (moduleFile "a.b") ∧
      table.lookup "compile_check_components_a_c_component" = some (moduleFile "a_c") := by
  have hfiles : ∀ f ∈ [moduleFile "a.b", moduleFile "a_c"],
      (stemOf? ⟨"/", []⟩ f).isSome = true ∧ ∀ n ∈ f.names, '/' ∉ n.toList := by decide +kernel
  obtain ⟨-, table, htable, hiff⟩ := loaded_keeps_iff hfiles
  have hfound := hiff.mpr (by decide +kernel)
  have hname : moduleName ⟨"/", []⟩ (moduleFile "a.b") =
      .ok "compile_check_components_a_b_component" := by decide +kernel
  have hname' : moduleName ⟨"/", []⟩ (moduleFile "a_c") =
      .ok "compile_check_components_a_c_component" := by decide +kernel
  obtain ⟨_, h, hfirst⟩ := hfound (moduleFile "a.b") (by simp)
  cases hname.symm.trans h
  obtain ⟨_, h, hsecond⟩ := hfound (moduleFile "a_c") (by simp)
  cases hname'.symm.trans h
  exact ⟨hfiles, table, htable, hfirst, hsecond⟩

/-- The second module takes the place of the first. -/
theorem loaded_hyphen_replaced : moduleFile "a-b" ≠ moduleFile "a_b" ∧
    moduleName ⟨"/", []⟩ (moduleFile "a-b") = moduleName ⟨"/", []⟩ (moduleFile "a_b") ∧
    (loaded ⟨"/", []⟩ [moduleFile "a-b", moduleFile "a_b"]).map
      (List.lookup "compile_check_components_a_b_component") = .ok (some (moduleFile "a_b")) := by
  decide +kernel

end AssetCatalog.Compile
