import AssetCatalog.Proofs.PackageSync
import AssetCatalog.Proofs.SkeletonDiscovery

/-!
# Two ways to find the packages

They agree exactly if the catalogue has an initial module and every package is a regular one.
-/

namespace AssetCatalog.Package

open List Text Tree

open AssetCatalog.Run (bind_of_eq rootSite)

variable {top : String} {rest : List String}
variable {t u : Tree} {root : Location} {names : List String}

/-! ## Folders on the way -/

lemma mem_starts {l : List String} : l ∈ starts names ↔ l ≠ [] ∧ l <+: names := by
  rw [starts, mem_map]
  constructor
  · rintro ⟨i, hi, rfl⟩
    rw [mem_range] at hi
    refine ⟨?_, take_prefix _ _⟩
    intro hnil
    have hlen := congrArg List.length hnil
    rw [length_take, length_nil] at hlen
    omega
  · rintro ⟨hne, hprefix⟩
    have hpos := length_pos_iff.mpr hne
    have hle := hprefix.length_le
    refine ⟨l.length - 1, mem_range.mpr (by omega), ?_⟩
    rw [Nat.sub_add_cancel hpos]
    exact (prefix_iff_eq_take.mp hprefix).symm

lemma forall_starts_cons {P : List String → Prop} :
    (∀ l ∈ starts (top :: rest), P l) ↔ P [top] ∧ ∀ l ∈ starts rest, P (top :: l) := by
  simp only [mem_starts]
  constructor
  · intro h
    refine ⟨h [top] ⟨by simp, by simp⟩, ?_⟩
    rintro l ⟨-, hl⟩
    exact h (top :: l) ⟨by simp, by simpa using hl⟩
  · rintro ⟨htop, hrest⟩ l ⟨hne, hl⟩
    obtain ⟨n, l', rfl⟩ := exists_cons_of_ne_nil hne
    obtain ⟨rfl, hl'⟩ := cons_prefix_cons.mp hl
    by_cases h : l' = []
    · exact h ▸ htop
    · exact hrest l' ⟨h, hl'⟩

lemma forall_getLast_starts {P : String → Prop} :
    (∀ l ∈ starts names, ∀ n ∈ l.getLast?, P n) ↔ ∀ n ∈ names, P n := by
  simp only [mem_starts]
  constructor
  · intro h n hn
    obtain ⟨a, b, rfl⟩ := append_of_mem hn
    refine h (a ++ [n]) ⟨by simp, ?_⟩ n (by simp)
    rw [append_cons a n b]
    exact prefix_append _ _
  · rintro h l ⟨-, hl⟩ n hn
    exact h n (hl.subset (mem_of_getLast? hn))

lemma mem_chains {p : List String → Bool} : names ∈ chains t root p ↔
    names ∈ t.allBelow root ∧ t.isFolder (root ++ names) ∧ ∀ l ∈ starts names, p l := by
  rw [chains, mem_filter, mem_filter, all_eq_true, and_assoc]

lemma mem_allBelow {l : Location} (hl : t.follow [] root = .ok l) (hfolder : l ∈ t.folders) :
    names ∈ t.allBelow root ↔ names ≠ [] ∧ l ++ names ∈ (t.files.map (·.1)) ++ t.folders := by
  simp only [allBelow, hl, (entry?_eq_folder_iff t l).mpr hfolder, mem_map,
    mem_filter, Bool.and_eq_true, isPrefixOf_iff_prefix, decide_eq_true_eq]
  constructor
  · rintro ⟨k, ⟨hk, ⟨m, rfl⟩, hne⟩, rfl⟩
    rw [drop_left]
    exact ⟨fun h => hne (by rw [h, append_nil]), hk⟩
  · rintro ⟨hne, hmem⟩
    exact ⟨_, ⟨hmem, prefix_append _ _, by simpa using hne⟩, drop_left⟩

lemma singleton_mem_allBelow (htop : top ≠ "..")
    (h : t.isFolder (root ++ [top])) : [top] ∈ t.allBelow root := by
  obtain ⟨k, hk, hfolder⟩ := (isFolder_iff t _).mp h
  obtain ⟨l, hl, hroot, rfl⟩ := follow_concat_eq_ok htop hk
  rw [mem_allBelow hl hroot]
  exact ⟨by simp, mem_append_right _ hfolder⟩

lemma mem_allBelow_append (hrest : ".." ∉ rest) (h : t.isFolder (root ++ rest)) :
    names ∈ t.allBelow (root ++ rest) ↔ names ≠ [] ∧ rest ++ names ∈ t.allBelow root := by
  obtain ⟨k, hk, hfolder⟩ := (isFolder_iff t _).mp h
  obtain ⟨l, hl, hroot, rfl⟩ := follow_append_eq_ok hrest hk hfolder
  rw [mem_allBelow hk hfolder, mem_allBelow hl hroot, append_assoc]
  simp +contextual

/-! ## Folders that are packages -/

/-- A folder that counts as a package: every folder down to it has an initial module, the first is one
of those whose packages belong to the catalogue, and no later one holds tests. -/
structure IsPackage (t : Tree) (root : Location) (names : List String) : Prop where
  below : names ∈ t.allBelow root
  folder : t.isFolder (root ++ names) = true
  initial : ∀ l ∈ starts names, t.exists? (root ++ l ++ [initialModule]) = true
  top : ∃ top ∈ topFolders, ∃ rest, names = top :: rest ∧ "tests" ∉ rest

/-- What a distribution asks beyond that: names without points, initial modules that are files, and a
last name that does not end like that of a cache. -/
structure IsRegular (t : Tree) (root : Location) (names : List String) : Prop where
  undotted : ∀ n ∈ names, '.' ∉ n.toList
  initial : ∀ l ∈ starts names, t.isFile (root ++ l ++ [initialModule]) = true
  kept : ∀ n ∈ names.getLast?, endsWith n "__pycache__" = false

lemma isPackage_cons_iff (htop : top ∈ topFolders) : IsPackage t root (top :: rest) ↔
      t.exists? (root ++ [top] ++ [initialModule]) ∧
        (rest = [] ∨ rest ∈ chains t (root ++ [top]) fun l =>
          l.getLast? ≠ some "tests" && t.exists? (root ++ top :: l ++ [initialModule])) := by
  have hdots : top ≠ ".." := by
    rintro rfl
    exact absurd htop (by decide)
  have hinitial : (∀ l ∈ starts (top :: rest), t.exists? (root ++ l ++ [initialModule])) ↔
      t.exists? (root ++ [top] ++ [initialModule]) ∧
        ∀ l ∈ starts rest, t.exists? (root ++ top :: l ++ [initialModule]) := forall_starts_cons
  have htests : (∀ l ∈ starts rest, l.getLast? ≠ some "tests") ↔ "tests" ∉ rest := by
    have hnames : "tests" ∉ rest ↔ ∀ n ∈ rest, n ≠ "tests" :=
      ⟨fun h n hn => ne_of_mem_of_not_mem hn h, fun h hmem => h _ hmem rfl⟩
    rw [hnames, ← forall_getLast_starts]
    refine forall₂_congr fun l _ => ?_
    rcases l.getLast? with _ | n <;> simp
  have hchain (h : t.isFolder (root ++ [top])) :
      rest ∈ chains t (root ++ [top]) (fun l =>
        l.getLast? ≠ some "tests" && t.exists? (root ++ top :: l ++ [initialModule])) ↔
      (rest ≠ [] ∧ top :: rest ∈ t.allBelow root) ∧ t.isFolder (root ++ top :: rest) ∧
        "tests" ∉ rest ∧ ∀ l ∈ starts rest, t.exists? (root ++ top :: l ++ [initialModule]) := by
    rw [mem_chains, mem_allBelow_append (by simpa using Ne.symm hdots) h, singleton_append,
      append_assoc, ← htests]
    simp only [Bool.and_eq_true, decide_eq_true_eq, forall_and]
    rfl
  constructor
  · rintro ⟨hbelow, hfolder, hstarts, top', -, rest', heq, hrest⟩
    obtain ⟨rfl, rfl⟩ := List.cons.inj heq
    obtain ⟨hthere, hinner⟩ := hinitial.mp hstarts
    refine ⟨hthere, or_iff_not_imp_left.mpr fun hne => ?_⟩
    exact (hchain (isFolder_of_exists? hthere)).mpr ⟨⟨hne, hbelow⟩, hfolder, hrest, hinner⟩
  · rintro ⟨hthere, hrest⟩
    have hfolder := isFolder_of_exists? hthere
    rcases hrest with rfl | hrest
    · have hbelow := singleton_mem_allBelow hdots hfolder
      exact ⟨hbelow, hfolder, hinitial.mpr ⟨hthere, by simp [mem_starts]⟩, top, htop, [], rfl, by simp⟩
    · obtain ⟨⟨-, hbelow⟩, hinnerFolder, htests, hinner⟩ := (hchain hfolder).mp hrest
      exact ⟨hbelow, hinnerFolder, hinitial.mpr ⟨hthere, hinner⟩, top, htop, rest, rfl, htests⟩

lemma mem_expected {n : String} : n ∈ expected t root ↔
    (n = rootName ∧ t.exists? (root ++ [initialModule])) ∨
      ∃ names, IsPackage t root names ∧ n = qualified names := by
  have hown : n ∈ (if t.exists? (root ++ [] ++ [initialModule]) then [rootName] else []) ↔
      n = rootName ∧ t.exists? (root ++ [initialModule]) := by
    split <;> simp_all
  have hfound {names : List String} : names ∈ (topFolders.flatMap fun top =>
        if t.exists? (root ++ [top] ++ [initialModule]) then
          let inner := chains t (root ++ [top]) fun l =>
            l.getLast? ≠ some "tests" && t.exists? (root ++ top :: l ++ [initialModule])
          [top] :: inner.map (top :: ·)
        else []) ↔ IsPackage t root names := by
    rw [mem_flatMap]
    constructor
    · rintro ⟨top, htop, hmem⟩
      split at hmem
      · next hthere =>
        rcases mem_cons.mp hmem with rfl | hmem
        · exact (isPackage_cons_iff htop).mpr ⟨hthere, .inl rfl⟩
        · obtain ⟨rest, hrest, rfl⟩ := mem_map.mp hmem
          exact (isPackage_cons_iff htop).mpr ⟨hthere, .inr hrest⟩
      · cases hmem
    · intro h
      obtain ⟨top, htop, rest, rfl, -⟩ := h.top
      obtain ⟨hthere, hrest⟩ := (isPackage_cons_iff htop).mp h
      refine ⟨top, htop, ?_⟩
      rw [if_pos hthere]
      rcases hrest with rfl | hrest
      · exact mem_cons_self
      · exact mem_cons_of_mem _ (mem_map_of_mem hrest)
  rw [expected, mem_append, mem_map, hown]
  exact or_congr_right (exists_congr fun names => and_congr hfound eq_comm)

lemma isDistributed_iff : isDistributed names ↔
    (∃ top ∈ topFolders, ∃ rest, names = top :: rest ∧ "tests" ∉ rest) ∧
      ∀ n ∈ names.getLast?, endsWith n "__pycache__" = false := by
  have hlast : (!((names.getLast?.map fun n => endsWith n "__pycache__").getD false)) ↔
      ∀ n ∈ names.getLast?, endsWith n "__pycache__" = false := by
    rcases names.getLast? with _ | n <;> simp
  rcases names with _ | ⟨top, rest⟩
  · simp [isDistributed]
  · simp only [isDistributed, Bool.and_eq_true, hlast]
    simp

lemma mem_distributed {n : String} : n ∈ distributed t root ↔
    n = rootName ∨ ∃ names, IsPackage t root names ∧ IsRegular t root names ∧ n = qualified names := by
  have hundotted (l : List String) :
      (!((l.getLast?.map fun n => n.toList.contains '.').getD false)) ↔
        ∀ n ∈ l.getLast?, '.' ∉ n.toList := by
    rcases l.getLast? with _ | n <;> simp
  have hfound {names : List String} : names ∈ (chains t root fun l =>
        !((l.getLast?.map fun n => n.toList.contains '.').getD false) &&
          t.isFile (root ++ l ++ [initialModule])).filter isDistributed ↔
      IsPackage t root names ∧ IsRegular t root names := by
    simp only [mem_filter, mem_chains, isDistributed_iff, Bool.and_eq_true, hundotted, forall_and,
      forall_getLast_starts]
    constructor
    · rintro ⟨⟨hbelow, hfolder, hnames, hinitial⟩, htop, hkept⟩
      refine ⟨⟨hbelow, hfolder, fun l hl => ?_, htop⟩, hnames, hinitial, hkept⟩
      rw [exists?, hinitial l hl, Bool.true_or]
    · rintro ⟨hpackage, hregular⟩
      exact ⟨⟨hpackage.below, hpackage.folder, hregular.undotted, hregular.initial⟩, hpackage.top,
        hregular.kept⟩
  rw [distributed, sort, mem_mergeSort, mem_cons, mem_map]
  refine or_congr_right (exists_congr fun names => ?_)
  rw [hfound, and_assoc, eq_comm]

lemma qualified_ne_rootName (h : names ≠ []) : qualified names ≠ rootName := by
  obtain ⟨n, ns, rfl⟩ := exists_cons_of_ne_nil h
  intro heq
  have hmem : '.' ∈ (qualified (n :: ns)).toList := by
    rw [qualified, join_cons_cons]
    simp
  rw [heq] at hmem
  exact absurd hmem (by decide)

/-- When the two ways to find packages agree: the catalogue has an initial module of its own, and every
package is a regular one or is named like one. -/
def Agrees (t : Tree) (root : Location) : Prop :=
  t.exists? (root ++ [initialModule]) = true ∧
    ∀ names, IsPackage t root names →
      ∃ names', IsPackage t root names' ∧ IsRegular t root names' ∧ qualified names' = qualified names

lemma expected_iff_distributed_iff_agrees (t : Tree) (root : Location) :
    (∀ n, n ∈ expected t root ↔ n ∈ distributed t root) ↔ Agrees t root := by
  simp only [mem_expected, mem_distributed]
  constructor
  · intro h
    constructor
    · rcases (h rootName).mpr (.inl rfl) with ⟨-, hroot⟩ | ⟨names, hnames, heq⟩
      · exact hroot
      · obtain ⟨top, -, rest, rfl, -⟩ := hnames.top
        exact absurd heq.symm (qualified_ne_rootName (cons_ne_nil _ _))
    · intro names hnames
      rcases (h (qualified names)).mp (.inr ⟨names, hnames, rfl⟩) with heq | ⟨names', h', hregular, heq⟩
      · obtain ⟨top, -, rest, rfl, -⟩ := hnames.top
        exact absurd heq (qualified_ne_rootName (cons_ne_nil _ _))
      · exact ⟨names', h', hregular, heq.symm⟩
  · rintro ⟨hroot, hpackages⟩ n
    constructor
    · rintro (⟨rfl, -⟩ | ⟨names, hnames, rfl⟩)
      · exact .inl rfl
      · obtain ⟨names', h', hregular, heq⟩ := hpackages names hnames
        exact .inr ⟨names', h', hregular, heq.symm⟩
    · rintro (rfl | ⟨names, hnames, -, rfl⟩)
      · exact .inl ⟨rfl, hroot⟩
      · exact .inr ⟨names, hnames, rfl⟩

/-! ## The manifest -/

lemma SamePlaces.expected (h : SamePlaces t u) (root : Location) :
    expected u root = expected t root := by
  simp only [Package.expected, chains, exists?, h.allBelow, h.isFolder, h.isFile]
  rfl

lemma complaint_eq_nil_iff (kind : String) (names : List String) :
    complaint kind names = [] ↔ names = [] := by
  cases names <;> simp [complaint]

lemma manifestComplaints_eq_nil_iff (found declared : List String) :
    manifestComplaints found declared = [] ↔ ∀ n, n ∈ found ↔ n ∈ declared := by
  rw [manifestComplaints, append_eq_nil_iff, complaint_eq_nil_iff, complaint_eq_nil_iff,
    filter_eq_nil_iff, filter_eq_nil_iff]
  simp only [Bool.not_eq_true', Bool.not_eq_false, contains_iff_mem]
  exact ⟨fun h n => ⟨h.1 n, h.2 n⟩, fun h => ⟨fun n => (h n).mp, fun n => (h n).mpr⟩⟩

lemma mapM_texts {f : Value → Option String} (hf : ∀ s, f (.text s) = some s) (names : List String) :
    (names.map Value.text).mapM f = some names := by
  induction names with
  | nil => rfl
  | cons n names ih => simp [hf, ih]

variable {site : Site} {w w' : World} {place : Path}

lemma declared_of_inStep (h : InStep place site w.tree) :
    ∃ names, declared place site w = (.ok names, w) ∧ ∀ n, n ∈ names ↔ n ∈ found place site w.tree := by
  obtain ⟨text, m, hholds, xs, hxs, hsorted⟩ := h
  have hperm := Value.sorted_perm hsorted
  obtain ⟨names, rfl⟩ : xs ∈ Set.range (List.map Value.text) := by
    rw [Set.range_list_map]
    intro x hx
    obtain ⟨s, -, hs⟩ := mem_map.mp (hperm.mem_iff.mpr hx)
    exact ⟨s, hs⟩
  have hinj : Function.Injective Value.text := fun a b h => Value.text.inj h
  have hnames : (found place site w.tree).Perm names := (map_perm_map_iff hinj).mp hperm
  refine ⟨distinct names, ?_, fun n => by rw [mem_distinct, hnames.mem_iff]⟩
  rw [declared, bind_of_eq (Run.attempt_apply _ _ _), hholds.readDeclared hxs]
  dsimp only
  rw [mapM_texts fun s => rfl]
  rfl

lemma checkManifest_of_inStep (h : InStep place site w.tree) :
    ∃ complaints, checkManifest place site w = (.ok complaints, w) ∧
      (complaints = [] ↔
        ∀ n, n ∈ expected w.tree (site.home.join place).names ↔ n ∈ found place site w.tree) := by
  obtain ⟨names, hdeclared, hnames⟩ := declared_of_inStep h
  refine ⟨manifestComplaints (expected w.tree (site.home.join place).names) names, ?_, ?_⟩
  · rw [checkManifest, bind_of_eq (Run.locate_apply _ _ _), bind_of_eq (Run.get_apply _ _),
      bind_of_eq hdeclared]
    rfl
  · simp only [manifestComplaints_eq_nil_iff, hnames]

/-- Whether a run can bring a manifest in step: it is in step, or its list stands in the right table and
the names need no escapes. -/
def IsTended (place : Path) (site : Site) (t : Tree) : Prop :=
  InStep place site t ∨ (∀ n ∈ found place site t, IsPlain n) ∧
    ∀ text, t.read (manifestPlace place site) = .ok (.text text) →
      listTable? (asRead text) = some ["tool", "setuptools"]

/-- A completed run leaves the places as they are, and the manifest in step if it was or if its list
stands in the right table. -/
lemma inStep_of_sync (hrun : sync place site w = (.ok (), w')) (h : IsTended place site w.tree) :
    SamePlaces w.tree w'.tree ∧ InStep place site w'.tree := by
  obtain ⟨text, m, xs, hholds, hxs, hcases⟩ := sync_eq_ok hrun
  rcases hcases with ⟨hlists, htree⟩ | ⟨updated, hnot, hreplace, hwrite⟩
  · rw [htree]
    exact ⟨⟨rfl, rfl⟩, text, m, hholds, hlists⟩
  · obtain ⟨hplaces, hread⟩ := write_over hholds.read hwrite
    refine ⟨hplaces, ?_⟩
    rcases h with ⟨text', m', hholds', hlists⟩ | ⟨hplain, htable⟩
    · exact absurd ((hholds.unique hholds').2 ▸ hlists) hnot
    · obtain ⟨ys, last, updated', m₁, hreplace', hparse, htwin⟩ := exists_common_manifest hholds.parsed
        (htable text hholds.read) (distributed_ne_nil _ _) hplain
      obtain rfl : updated = updated' := Option.some.inj (hreplace.symm.trans hreplace')
      have hfound : found place site w'.tree = found place site w.tree := hplaces.distributed _
      refine ⟨updated, _, ⟨hread, hparse⟩, ?_⟩
      rw [hfound]
      exact ⟨_, declaredIn_of_twin htwin hxs, Value.sorted_texts (pairwise_distributed _ _)⟩

/-- The two ways to find packages give the same names exactly in a catalogue where they agree, and there
alone a manifest that a run has brought up to date passes the check. -/
theorem checked_iff_agrees (place : Path) (site : Site) (w : World) :
    ((∀ n, n ∈ expected w.tree (site.home.join place).names ↔ n ∈ found place site w.tree) ↔
      Agrees w.tree (site.home.join place).names) ∧
    ∀ w', sync place site w = (.ok (), w') → IsTended place site w.tree →
      ∃ complaints, checkManifest place site w' = (.ok complaints, w') ∧
        (complaints = [] ↔ Agrees w.tree (site.home.join place).names) := by
  have hiff := expected_iff_distributed_iff_agrees w.tree (site.home.join place).names
  refine ⟨hiff, fun w' hrun hmanifest => ?_⟩
  obtain ⟨hplaces, hstep⟩ := inStep_of_sync hrun hmanifest
  obtain ⟨complaints, hcheck, hnil⟩ := checkManifest_of_inStep hstep
  have hfound : found place site w'.tree = found place site w.tree := hplaces.distributed _
  rw [hfound, hplaces.expected] at hnil
  exact ⟨complaints, hcheck, hnil.trans hiff⟩

def rootedCatalogue (manifest : String) : World where
  tree :=
    { files := [(["pyproject.toml"], .text manifest), (["__init__.py"], .text ""),
        (["components", "__init__.py"], .text ""), (["components", "data", "__init__.py"], .text "")]
      folders := [[], ["components"], ["components", "data"]] }

lemma found_rootedCatalogue (manifest : String) :
    found rootSite.repository rootSite (rootedCatalogue manifest).tree =
      ["kfp_components", "kfp_components.components", "kfp_components.components.data"] := by
  cbv

theorem checked_outdated :
    ∃ w', sync rootSite.repository rootSite (rootedCatalogue outdated) = (.ok (), w') ∧
      checkManifest rootSite.repository rootSite w' = (.ok [], w') := by
  obtain ⟨hagree, hchecked⟩ := checked_iff_agrees rootSite.repository rootSite (rootedCatalogue outdated)
  have hholds : (rootedCatalogue outdated).tree.read (manifestPlace rootSite.repository rootSite) =
      .ok (.text outdated) := rfl
  have hplain : ∀ n ∈ found rootSite.repository rootSite (rootedCatalogue outdated).tree,
      IsPlain n := by
    simp [found_rootedCatalogue, IsPlain, Toml.isControl]
  have htended : IsTended rootSite.repository rootSite (rootedCatalogue outdated).tree := by
    refine .inr ⟨hplain, fun text htext => ?_⟩
    obtain rfl : outdated = text := by simpa using hholds.symm.trans htext
    exact listTable_outdated
  have hsame : expected (rootedCatalogue outdated).tree (rootSite.home.join rootSite.repository).names =
      found rootSite.repository rootSite (rootedCatalogue outdated).tree := by
    rw [found_rootedCatalogue]
    decide +kernel
  obtain ⟨m, hparse, -⟩ := listed_eq_ok.mp listed_outdated
  obtain ⟨_, _, updated, _, hreplace, _⟩ :=
    exists_common_manifest hparse listTable_outdated (distributed_ne_nil _ _) hplain
  obtain ⟨w', hrun, -⟩ := exists_sync hholds (by rw [listed_outdated]; rfl) hreplace rfl
  obtain ⟨complaints, hcheck, hnil⟩ := hchecked w' hrun htended
  rw [hnil.mpr (hagree.mp fun n => by rw [hsame])] at hcheck
  exact ⟨w', hrun, hcheck⟩

def upToDate : String :=
  "[tool.setuptools]\npackages = [\"kfp_components\", \"kfp_components.components\"]\n"

/-- A manifest in step fails the check if the catalogue has no initial module of its own. -/
theorem unrooted_refused : ∃ w' complaints,
      sync rootSite.repository rootSite (smallCatalogue upToDate) = (.ok (), w') ∧
      checkManifest rootSite.repository rootSite w' = (.ok complaints, w') ∧
      complaints ≠ [] ∧
      rootName ∈ found rootSite.repository rootSite (smallCatalogue upToDate).tree ∧
      rootName ∉ expected (smallCatalogue upToDate).tree [] := by
  have hstep : InStep rootSite.repository rootSite (smallCatalogue upToDate).tree := by
    rw [inStep_iff rfl, found_smallCatalogue, ← lists?_iff]
    decide +kernel
  have hfound : rootName ∈ found rootSite.repository rootSite (smallCatalogue upToDate).tree := by
    rw [found_smallCatalogue]
    decide
  have hexpected : rootName ∉ expected (smallCatalogue upToDate).tree [] := by
    decide +kernel
  obtain ⟨w', hrun, htree⟩ := sync_of_inStep hstep
  obtain ⟨complaints, hcheck, hnil⟩ := checkManifest_of_inStep (htree ▸ hstep)
  refine ⟨w', complaints, hrun, hcheck, fun h => ?_, hfound, hexpected⟩
  have hsame := hnil.mp h rootName
  rw [htree] at hsame
  exact hexpected (hsame.mpr hfound)

end AssetCatalog.Package
