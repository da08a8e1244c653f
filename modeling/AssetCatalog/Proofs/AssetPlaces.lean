import AssetCatalog.Proofs.SkeletonDiscovery
import AssetCatalog.Proofs.PackageSync

/-!
# Where found assets lie

Each asset is named once, and its place leads back to it however it is written.
-/

namespace AssetCatalog

open List Path Tree

variable {n raw g : String} {p repository : Path} {t : Tree}

namespace Path

lemma below_eq_item (h : IsStep n) (p : Path) : p.below n = p.item n := by
  rw [below, ofText_of_isStep h]
  rfl

/-! ## Steps back -/

lemma normalNames_cons (hn : n ≠ "..") (done rest : List String) :
    normalNames done (n :: rest) = normalNames (done ++ [n]) rest := by
  rw [normalNames]
  intro h
  exact hn h

lemma normalNames_append (done ms ns : List String) :
    normalNames done (ms ++ ns) = normalNames (normalNames done ms) ns := by
  induction ms generalizing done with
  | nil => rfl
  | cons m ms ih =>
    by_cases hm : m = ".."
    · rw [hm]
      exact ih _
    · rw [cons_append, normalNames_cons hm, normalNames_cons hm]
      exact ih _

lemma normalNames_of_notMem {ns : List String} (h : ".." ∉ ns) (done : List String) :
    normalNames done ns = done ++ ns := by
  induction ns generalizing done with
  | nil => simp [normalNames]
  | cons n ns ih =>
    obtain ⟨hn, hns⟩ := not_or.mp (mem_cons.not.mp h)
    rw [normalNames_cons (Ne.symm hn), ih hns, append_assoc]
    rfl

lemma dots_notMem_normalNames {done : List String} (hdone : ".." ∉ done) (ns : List String) :
    ".." ∉ normalNames done ns := by
  induction ns generalizing done with
  | nil => exact hdone
  | cons n ns ih =>
    by_cases hn : n = ".."
    · rw [hn]
      exact ih fun h => hdone (mem_of_mem_dropLast h)
    · rw [normalNames_cons hn]
      apply ih
      rw [mem_append, mem_singleton, not_or]
      exact ⟨hdone, Ne.symm hn⟩

lemma resolve_of_isAbsolute (h : p.isAbsolute) (base : Path) :
    p.resolve base = ⟨"/", normalNames [] p.names⟩ := by
  rw [resolve, join, if_pos h]

/-! ## Texts of paths -/

lemma ofText_text (hroot : p.root ∈ ["/", "//"]) (hne : p.names ≠ [])
    (h : ∀ n ∈ p.names, IsPlainName n ∧ n ≠ ".") : ofText p.text = p := by
  obtain ⟨root, names⟩ := p
  obtain ⟨hsplit, hfilter⟩ := split_join_names hne h
  have hstart (s : String) : Text.split "/" ("/" ++ s) = "" :: Text.split "/" s := by
    have happend := Text.split_append '/' "" s (by simp)
    simpa using happend
  have htake := takeWhile_join fun n hn => (h n hn).1
  simp only [mem_cons, not_mem_nil, or_false] at hroot
  rcases hroot with rfl | rfl
  · have htext : text ⟨"/", names⟩ = "/" ++ Text.join "/" names := by simp [text]
    have hslashes : ("/" ++ Text.join "/" names).toList.takeWhile (· = '/') = ['/'] := by
      simp [htake]
    rw [htext, ofText, hstart, hsplit, hslashes]
    simp [hfilter, isName]
  · have htext : text ⟨"//", names⟩ = "/" ++ ("/" ++ Text.join "/" names) := by
      simp [text, ← String.append_assoc]
    have hslashes : ("/" ++ ("/" ++ Text.join "/" names)).toList.takeWhile (· = '/') =
        ['/', '/'] := by
      simp [htake]
    rw [htext, ofText, hstart, hstart, hsplit, hslashes]
    simp [hfilter, isName]

end Path

namespace Tree

variable {p : Location}

lemma follow_normalNames {d p l : Location} (hdots : ".." ∉ d) (hd : t.follow [] d = .ok d)
    (h : t.follow d p = .ok l) : l = normalNames d p ∧ t.follow [] l = .ok l := by
  induction p generalizing d with
  | nil =>
    cases h
    exact ⟨rfl, hd⟩
  | cons n p ih =>
    simp only [follow] at h
    split at h
    · next hfolder =>
      by_cases hn : n = ".."
      · rw [if_pos hn] at h
        have hback : t.follow [] d.dropLast = .ok d.dropLast := by
          rcases eq_nil_or_concat' d with rfl | ⟨e, x, rfl⟩
          · exact hd
          · have hx : x ≠ ".." := by
              rintro rfl
              simp at hdots
            obtain ⟨e', he, -, heq⟩ := follow_concat_eq_ok hx hd
            obtain rfl := (append_inj' heq rfl).1
            simpa using he
        have hnext := ih (fun hmem => hdots (mem_of_mem_dropLast hmem)) hback h
        rw [hn]
        exact hnext
      · rw [if_neg hn] at h
        have hfurther : t.follow [] (d ++ [n]) = .ok (d ++ [n]) := by
          rw [follow_concat, hd]
          simp only [Except.bind, hfolder, if_neg hn]
        rw [normalNames_cons hn]
        apply ih _ hfurther h
        rw [mem_append, mem_singleton, not_or]
        exact ⟨hdots, Ne.symm hn⟩
    · cases h
    · cases h

lemma isFile_normalNames (h : t.isFile p) : t.isFile (normalNames [] p) := by
  obtain ⟨l, hl, hnot, hmem⟩ := (Package.isFile_iff t p).mp h
  obtain ⟨rfl, hself⟩ := follow_normalNames not_mem_nil rfl hl
  exact (Package.isFile_iff t _).mpr ⟨_, hself, hnot, hmem⟩

lemma isFolder_eq_false_of_isFile (h : t.isFile p) : t.isFolder p = false := by
  rw [isFile] at h
  rw [isFolder]
  split at h
  · next hfind => rw [hfind]
  · cases h

end Tree

namespace Asset

open AssetCatalog.Path (IsStep)
open AssetCatalog.Run (bind_apply bind_of_eq rootSite)

variable {site : Site} {w : World} {base : Path} {fileName type : String} {a : Asset}

/-! ## Each asset once -/

lemma exists_item_of_mem_openIn {q : Path} (h : q ∈ openIn site t p) : ∃ n, q = p.item n := by
  rw [openIn, mem_filter, sortByText, mem_mergeSort, mem_map] at h
  obtain ⟨⟨n, -, hn⟩, -⟩ := h
  exact ⟨n, hn.symm⟩

lemma nodup_openIn (p : Path) : (openIn site t p).Nodup := by
  have hinj : Function.Injective p.item := fun m n h => text_item_inj p (congrArg text h)
  have hnames : ((t.namesIn (site.home.join p).names).toOption.getD []).Nodup := by
    rcases h : t.namesIn (site.home.join p).names with e | names
    · exact nodup_nil
    · obtain ⟨-, -, -, hnodup, -⟩ := namesIn_eq_ok h
      exact hnodup
  apply List.Nodup.filter
  rw [sortByText, (mergeSort_perm _ _).nodup_iff]
  exact hnames.map hinj

lemma nodup_flatMap_openIn {f : Path → List Path}
    (hf : ∀ q ∈ openIn site t p, (f q).Nodup ∧ ∀ r ∈ f q, q.names <+: r.names) :
    ((openIn site t p).flatMap f).Nodup ∧ ∀ r ∈ (openIn site t p).flatMap f, p.names <+: r.names := by
  constructor
  · rw [nodup_flatMap]
    refine ⟨fun q hq => (hf q hq).1, (nodup_openIn p).imp_of_mem ?_⟩
    intro q q' hq hq' hne r hr hr'
    obtain ⟨m, rfl⟩ := exists_item_of_mem_openIn hq
    obtain ⟨n, rfl⟩ := exists_item_of_mem_openIn hq'
    have hm := (hf _ hq).2 r hr
    have hn := (hf _ hq').2 r hr'
    have hnames : (p.item m).names = (p.item n).names :=
      (prefix_of_prefix_length_le hm hn (by simp [item])).eq_of_length (by simp [item])
    apply hne
    simpa [item] using hnames
  · intro r hr
    obtain ⟨q, hq, hr⟩ := mem_flatMap.mp hr
    have hprefix := (hf q hq).2 r hr
    obtain ⟨n, rfl⟩ := exists_item_of_mem_openIn hq
    exact (prefix_append p.names [n]).trans hprefix

lemma nodup_assetsAt (hstep : IsStep fileName) (category item : Path) :
    ((assetsAt site t fileName category item).map Asset.path).Nodup ∧
      ∀ r ∈ (assetsAt site t fileName category item).map Asset.path, item.names <+: r.names := by
  rw [assetsAt]
  by_cases hmarks : Marks site t fileName item
  · rw [if_pos hmarks, map_singleton, below_eq_item hstep]
    refine ⟨nodup_singleton _, ?_⟩
    intro r hr
    rw [mem_singleton.mp hr]
    exact prefix_append _ _
  · rw [if_neg hmarks, map_map]
    have hinj : Function.Injective fun q : Path => q.below fileName := by
      intro p q h
      simp only [below_eq_item hstep] at h
      obtain ⟨pr, ps⟩ := p
      obtain ⟨qr, qs⟩ := q
      simpa [Path.item] using h
    constructor
    · exact (((nodup_openIn item).filter _).filter _).map hinj
    · intro r hr
      obtain ⟨q, hq, rfl⟩ := mem_map.mp hr
      have hopen := (mem_filter.mp (mem_filter.mp hq).1).1
      obtain ⟨n, rfl⟩ := exists_item_of_mem_openIn hopen
      have hnames : ((item.item n).below fileName).names = item.names ++ [n, fileName] := by
        rw [Path.below_eq_item hstep]
        simp [Path.item]
      exact hnames ▸ prefix_append _ _

lemma nodup_laid (hstep : IsStep fileName) (base : Path) :
    ((laid site t base fileName).map Asset.path).Nodup := by
  rw [laid, map_flatMap]
  refine (nodup_flatMap_openIn fun category _ => ?_).1
  rw [map_flatMap]
  exact nodup_flatMap_openIn fun item _ => nodup_assetsAt hstep category item

/-! ## The place of an asset -/

/-- The names from a folder of assets down to an asset in it. -/
def inside (a : Asset) : List String := a.category :: a.subcategory.toList ++ [a.name]

lemma ne_dots_of_isHidden (h : isHidden n = false) : n ≠ "." ∧ n ≠ ".." := by
  constructor
  · rintro rfl
    exact absurd h (by decide)
  · rintro rfl
    exact absurd h (by decide)

lemma path_of_mem_laid (hstep : IsStep fileName)
    (hfolder : t.isFolder (site.home.join base).names) (ha : a ∈ laid site t base fileName) :
    a.path = { base with names := base.names ++ a.inside ++ [fileName] } ∧
      ∀ n ∈ a.inside, isHidden n = false := by
  obtain ⟨c, i, hc, hi, ha⟩ := (mem_laid hfolder).mp ha
  have hvisible {q : Path} {n : String} (h : IsOpen site t (q.item n)) : isHidden n = false :=
    (isOpen_item_iff.mp h).2
  rcases (mem_assetsAt hi).mp ha with ⟨-, rfl⟩ | ⟨-, n, hopen, -, -, rfl⟩
  · rw [below_eq_item hstep]
    constructor
    · simp [inside, Path.item, Path.name]
    · simpa [inside] using ⟨hvisible hc, hvisible hi⟩
  · rw [Path.below_eq_item hstep]
    constructor
    · simp [inside, Path.item, Path.name]
    · simpa [inside] using ⟨hvisible hc, hvisible hi, hvisible hopen⟩

lemma isStep_of_mem_inside (hnames : w.tree.PlainNames) (hstep : IsStep fileName)
    (hfolder : w.tree.isFolder (site.home.join base).names)
    (ha : a ∈ laid site w.tree base fileName) : ∀ n ∈ a.inside, IsStep n := by
  have hplaced := placed_of_mem_laid hnames hfolder ha
  intro n hn
  obtain ⟨hdot, hdots⟩ := ne_dots_of_isHidden ((path_of_mem_laid hstep hfolder ha).2 n hn)
  refine ⟨?_, hdot, hdots⟩
  simp only [inside, cons_append, mem_cons, mem_append, Option.mem_toList,
    not_mem_nil, or_false] at hn
  rcases hn with rfl | hn | rfl
  · exact hplaced.category
  · exact hplaced.subcategory n hn
  · exact hplaced.name

lemma openFolders_of_not_isFolder (h : w.tree.isFolder (site.home.join p).names = false) :
    ∃ e, openFolders p site w = (.error e, w) := by
  obtain ⟨e, he⟩ := namesIn_of_notFolder h
  refine ⟨e, ?_⟩
  simp only [openFolders, Run.folderItems, bind_apply, Run.locate_apply, Run.get_apply,
    Run.ofExcept_apply, he]

lemma layout_of_not_isFolder (h : w.tree.isFolder (site.home.join base).names = false) :
    ∃ e, ∀ fileName, layout base fileName site w = (.error e, w) := by
  obtain ⟨e, he⟩ := openFolders_of_not_isFolder h
  refine ⟨e, fun fileName => ?_⟩
  rw [layout, bind_apply, he]

lemma discover_eq_ok {w w' : World} {assets : List Asset}
    (h : discover base type site w = (.ok assets, w')) :
    w' = w ∧ (assets = [] ∨ w.tree.isFolder (site.home.join base).names ∧
      assets = laid site w.tree base (type ++ ".py")) := by
  by_cases hfolder : w.tree.isFolder (site.home.join base).names
  · rw [discover_of_isFolder type hfolder] at h
    cases h
    exact ⟨rfl, .inr ⟨hfolder, rfl⟩⟩
  · obtain ⟨e, he⟩ := layout_of_not_isFolder (Bool.not_eq_true _ ▸ hfolder)
    rw [discover, bind_of_eq (Run.exists?_apply base site w)] at h
    split at h
    · rw [he] at h
      cases h
    · cases h
      exact ⟨rfl, .inl rfl⟩

/-! ## The asset at a place -/

/-- The place of an asset, and of its file, from the root of the catalogue and in full. -/
def spellings (repository : Path) (type : String) (a : Asset) : List String :=
  let folder := folderOf type :: a.inside
  let file := folder ++ [type ++ ".py"]
  [Text.join "/" folder, Text.join "/" file,
    text { repository with names := repository.names ++ folder },
    Path.text { repository with names := repository.names ++ file }]

/-- A folder that can stand as the root of a catalogue: a path from the root of the tree. -/
structure IsRoot (repository : Path) : Prop where
  root : repository.root ∈ ["/", "//"]
  names : ∀ n ∈ repository.names, IsPlainName n ∧ n ≠ "."

lemma IsRoot.isAbsolute (h : IsRoot repository) (names : List String) :
    Path.isAbsolute { repository with names } := by
  have hroot := h.root
  simp only [mem_cons, not_mem_nil, or_false] at hroot
  rcases hroot with hroot | hroot <;> simp [Path.isAbsolute, hroot]

lemma IsRoot.resolve_ofText (h : IsRoot repository) {names : List String}
    (hne : names ≠ []) (hsteps : ∀ n ∈ names, IsStep n)
    (hraw : raw = Text.join "/" names ∨
      raw = Path.text { repository with names := repository.names ++ names }) :
    (ofText raw).resolve repository =
      ⟨"/", normalNames [] (repository.names ++ names)⟩ := by
  rcases hraw with rfl | rfl
  · rw [ofText_join hne hsteps]
    rfl
  · have hnames : ∀ n ∈ repository.names ++ names, IsPlainName n ∧ n ≠ "." := by
      intro n hn
      rcases mem_append.mp hn with hn | hn
      · exact h.names n hn
      · exact ⟨(hsteps n hn).1, (hsteps n hn).2.1⟩
    have hsame : ofText (text { repository with names := repository.names ++ names }) =
        { repository with names := repository.names ++ names } :=
      ofText_text h.root (append_ne_nil_of_right_ne_nil _ hne) hnames
    rw [hsame, resolve_of_isAbsolute (h.isAbsolute _)]

lemma IsRoot.resolve_spelling (h : IsRoot repository)
    (hfolder : IsStep (folderOf type)) (hfile : IsStep (type ++ ".py"))
    (hsteps : ∀ n ∈ a.inside, IsStep n) (hraw : raw ∈ spellings repository type a) :
    ∃ names ∈ [a.inside, a.inside ++ [type ++ ".py"]], (ofText raw).resolve repository =
      ⟨"/", normalNames [] (repository.names ++ folderOf type :: names)⟩ := by
  have hinside : ∀ n ∈ folderOf type :: a.inside, IsStep n :=
    forall_mem_cons.mpr ⟨hfolder, hsteps⟩
  have hwhole : ∀ n ∈ folderOf type :: (a.inside ++ [type ++ ".py"]), IsStep n := by
    apply forall_mem_cons.mpr ⟨hfolder, _⟩
    apply forall_mem_append.mpr ⟨hsteps, _⟩
    simpa using hfile
  simp only [spellings, mem_cons, not_mem_nil, or_false] at hraw
  rcases hraw with hraw | hraw | hraw | hraw
  · exact ⟨_, by simp, h.resolve_ofText (cons_ne_nil _ _) hinside (.inl hraw)⟩
  · exact ⟨_, by simp, h.resolve_ofText (cons_ne_nil _ _) hwhole (.inl hraw)⟩
  · exact ⟨_, by simp, h.resolve_ofText (cons_ne_nil _ _) hinside (.inr hraw)⟩
  · exact ⟨_, by simp, h.resolve_ofText (cons_ne_nil _ _) hwhole (.inr hraw)⟩

lemma relativeTo?_append (root : String) (xs ys : List String) :
    relativeTo? ⟨root, xs ++ ys⟩ ⟨root, xs⟩ = some ⟨"", ys⟩ := by
  rw [relativeTo?, if_pos rfl, dropNames_eq_some_iff.mpr rfl]
  rfl

section Given

variable {top inner : List String}

lemma resolveFile_apply (hstep : IsStep (type ++ ".py"))
    (htop : (ofText (folderOf type)).resolve site.repository = ⟨"/", top⟩)
    (hraw : (ofText raw).resolve site.repository = ⟨"/", top ++ inner⟩ ∨
      (ofText raw).resolve site.repository = ⟨"/", top ++ (inner ++ [type ++ ".py"])⟩)
    (hheld : w.tree.isFile (top ++ (inner ++ [type ++ ".py"]))) :
    resolveFile type raw site w = (.ok ⟨"/", top ++ (inner ++ [type ++ ".py"])⟩, w) := by
  have hjoin (names : List String) : site.home.join ⟨"/", names⟩ = ⟨"/", names⟩ := rfl
  have hthere : w.tree.exists? (top ++ inner ++ [type ++ ".py"]) := by
    rw [append_assoc, exists?, hheld, Bool.true_or]
  have hwithin : isWithin ⟨"/", top ++ (inner ++ [type ++ ".py"])⟩ ⟨"/", top⟩ := by
    rw [isWithin, relativeTo?_append]
    rfl
  have hname : Path.name ⟨"/", top ++ (inner ++ [type ++ ".py"])⟩ = type ++ ".py" := by
    simp [Path.name]
  rcases hraw with hraw | hraw
  · have hfolder := Tree.isFolder_of_exists? hthere
    have hbelow : Path.below ⟨"/", top ++ inner⟩ (type ++ ".py") =
        ⟨"/", top ++ (inner ++ [type ++ ".py"])⟩ := by
      rw [below_eq_item hstep]
      simp [item]
    rw [append_assoc] at hthere
    simp [resolveFile, hraw, htop, hjoin, hfolder, hbelow, hwithin, hname, hthere]
  · have hfolder := Tree.isFolder_eq_false_of_isFile hheld
    rw [append_assoc] at hthere
    simp [resolveFile, hraw, htop, hjoin, hfolder, hwithin, hname, hthere]

lemma ofFile_apply (htop : (ofText (folderOf type)).resolve site.repository = ⟨"/", top⟩)
    (hdots : ".." ∉ top ++ (a.inside ++ [type ++ ".py"])) :
    ofFile type ⟨"/", top ++ (a.inside ++ [type ++ ".py"])⟩ site w =
      (.ok { a with path := ⟨"/", top ++ (a.inside ++ [type ++ ".py"])⟩ }, w) := by
  have hresolve : resolve ⟨"/", top ++ (a.inside ++ [type ++ ".py"])⟩ site.home =
      ⟨"/", top ++ (a.inside ++ [type ++ ".py"])⟩ := by
    rw [resolve_of_isAbsolute rfl, normalNames_of_notMem hdots]
    rfl
  have hname : Path.name ⟨"/", top ++ (a.inside ++ [type ++ ".py"])⟩ = type ++ ".py" := by
    simp [Path.name]
  simp only [ofFile, Run.resolve, bind_apply, Run.read_apply, Run.pure_apply, htop, hresolve, hname,
    relativeTo?_append, ne_eq, not_true_eq_false, if_false]
  obtain ⟨path, category, subcategory, name⟩ := a
  cases subcategory <;> rfl

end Given

lemma isStep_folderOf (htype : type ∈ ["component", "pipeline"]) :
    IsStep (folderOf type) ∧ IsStep (type ++ ".py") := by
  simp only [mem_cons, not_mem_nil, or_false] at htype
  rcases htype with rfl | rfl <;> decide

/-- The search for the assets of a catalogue lists none twice. Whichever way the place of a listed
asset is spelled, the asset of that place is the one listed, at the same path from the root. -/
theorem ofFile_resolveFile_of_mem_discover {w w' : World} {assets : List Asset}
    (htype : type ∈ ["component", "pipeline"]) (hroot : IsRoot site.repository)
    (hnames : w.tree.PlainNames)
    (hfound : discover (site.repository.below (folderOf type)) type site w = (.ok assets, w')) :
    (assets.map Asset.path).Nodup ∧
      ∀ a ∈ assets, w.tree.isFile a.path.names = true →
        ∀ raw ∈ spellings site.repository type a, ∃ file,
          resolveFile type raw site w = (.ok file, w) ∧
          ofFile type file site w = (.ok { a with path := a.path.resolve site.home }, w) ∧
          (site.repository.root = "/" → ".." ∉ site.repository.names →
            a.path.resolve site.home = a.path) := by
  obtain ⟨hfolderStep, hfileStep⟩ := isStep_folderOf htype
  obtain ⟨rfl, rfl | ⟨hfolder, rfl⟩⟩ := discover_eq_ok hfound
  · simp
  refine ⟨nodup_laid hfileStep _, ?_⟩
  intro a ha hfile raw hraw
  have hsteps := isStep_of_mem_inside hnames hfileStep hfolder ha
  have hpath := (path_of_mem_laid hfileStep hfolder ha).1
  rw [Path.below_eq_item hfolderStep, Path.item] at hpath
  have hdots : ".." ∉ a.inside ++ [type ++ ".py"] := by
    rw [mem_append, mem_singleton, not_or]
    exact ⟨fun h => (hsteps _ h).2.2 rfl, Ne.symm hfileStep.2.2⟩
  -- the folder of the assets once the steps back in the path of the catalogue are carried out
  set top := Path.normalNames [] (site.repository.names ++ [folderOf type])
  have htop : (Path.ofText (folderOf type)).resolve site.repository = ⟨"/", top⟩ :=
    hroot.resolve_ofText (cons_ne_nil _ []) (by simpa using hfolderStep)
      (.inl (by simp [Text.join]))
  have hnormal {names : List String} (h : ".." ∉ names) :
      Path.normalNames [] (site.repository.names ++ folderOf type :: names) = top ++ names := by
    rw [append_cons, Path.normalNames_append, Path.normalNames_of_notMem h]
  have hresolve : a.path.resolve site.home = ⟨"/", top ++ (a.inside ++ [type ++ ".py"])⟩ := by
    rw [hpath, Path.resolve_of_isAbsolute (hroot.isAbsolute _), ← hnormal hdots]
    simp
  have hheld : w'.tree.isFile (top ++ (a.inside ++ [type ++ ".py"])) = true := by
    have hnormalFile := Tree.isFile_normalNames hfile
    rw [hpath] at hnormalFile
    rw [← hnormal hdots]
    simpa using hnormalFile
  refine ⟨⟨"/", top ++ (a.inside ++ [type ++ ".py"])⟩, resolveFile_apply hfileStep htop ?_ hheld, ?_, ?_⟩
  · obtain ⟨names, hmem, hspelled⟩ := hroot.resolve_spelling hfolderStep hfileStep hsteps hraw
    simp only [mem_cons, not_mem_nil, or_false] at hmem
    rcases hmem with rfl | rfl
    · exact .inl (hspelled.trans (by rw [hnormal fun h => hdots (mem_append_left _ h)]))
    · exact .inr (hspelled.trans (by rw [hnormal hdots]))
  · rw [hresolve]
    apply ofFile_apply htop
    rw [← hnormal hdots]
    exact Path.dots_notMem_normalNames not_mem_nil _
  · intro hslash hback
    have hself : top = site.repository.names ++ [folderOf type] := by
      apply Path.normalNames_of_notMem
      rw [mem_append, mem_singleton, not_or]
      exact ⟨hback, Ne.symm hfolderStep.2.2⟩
    rw [hresolve, hpath, hself, hslash]
    simp

/-- A catalogue in a folder of the tree, with an asset directly in its category and one in a
subcategory. -/
def workshop : Tree where
  files := [(["work", "components", "training", "tuner", "component.py"], .text ""),
    (["work", "components", "training", "tuner", "metadata.yaml"], .text ""),
    (["work", "components", "training", "trees", "boosting", "component.py"], .text ""),
    (["work", "components", "training", "trees", "boosting", "metadata.yaml"], .text "")]
  folders := [[], ["work"], ["work", "components"], ["work", "components", "training"],
    ["work", "components", "training", "tuner"], ["work", "components", "training", "trees"],
    ["work", "components", "training", "trees", "boosting"]]

def workshopSite : Site := { rootSite with repository := ⟨"/", ["work"]⟩ }

def boosting (fileName : String) : Asset where
  path := ⟨"/", ["work", "components", "training", "trees", "boosting", fileName]⟩
  category := "training"
  subcategory := some "trees"
  name := "boosting"

lemma isFolder_workshop : workshop.isFolder (workshopSite.home.join
    (workshopSite.repository.below (folderOf "component"))).names := by
  decide +kernel

lemma boosting_mem_laid {fileName : String} (h : fileName ∈ ["component.py", "metadata.yaml"]) :
    boosting fileName ∈
      laid workshopSite workshop (workshopSite.repository.below (folderOf "component")) fileName := by
  refine (mem_laid isFolder_workshop).mpr ⟨"training", "trees", by decide +kernel, by decide +kernel, ?_⟩
  rw [mem_assetsAt (by decide +kernel)]
  simp only [mem_cons, not_mem_nil, or_false] at h
  rcases h with rfl | rfl
  · exact .inr ⟨by decide +kernel, "boosting", by decide +kernel⟩
  · exact .inr ⟨by decide +kernel, "boosting", by decide +kernel⟩

theorem ofFile_resolveFile_boosting : ∃ assets,
      discover (workshopSite.repository.below (folderOf "component")) "component" workshopSite
        { tree := workshop } = (.ok assets, { tree := workshop }) ∧
      boosting "component.py" ∈ assets ∧
      ∀ raw ∈ ["components/training/trees/boosting", "components/training/trees/boosting/component.py",
          "/work/components/training/trees/boosting",
          "/work/components/training/trees/boosting/component.py"],
        ∃ file, resolveFile "component" raw workshopSite { tree := workshop } =
            (.ok file, { tree := workshop }) ∧
          ofFile "component" file workshopSite { tree := workshop } =
            (.ok (boosting "component.py"), { tree := workshop }) := by
  have hfound := discover_of_isFolder (w := { tree := workshop }) "component" isFolder_workshop
  have hlisted : boosting "component.py" ∈ laid workshopSite workshop
      (workshopSite.repository.below (folderOf "component")) ("component" ++ ".py") :=
    boosting_mem_laid (by decide)
  refine ⟨_, hfound, hlisted, fun raw hraw => ?_⟩
  have hspelled : raw ∈ spellings workshopSite.repository "component" (boosting "component.py") := by
    revert raw
    decide +kernel
  obtain ⟨file, hresolved, hasset, hsame⟩ := (ofFile_resolveFile_of_mem_discover (by decide)
    ⟨by decide, by decide⟩ (by decide) hfound).2 _ hlisted (by decide +kernel) raw hspelled
  rw [hsame rfl (by decide)] at hasset
  exact ⟨file, hresolved, hasset⟩

/-! ## Assets with metadata -/

lemma map_folder_laid_congr (kind : String)
    (h : ∀ c ∈ openIn site t base, ∀ i ∈ openIn site t c, Marks site t fileName i = Marks site t g i ∧
      ∀ q ∈ openIn site t i, Marks site t fileName q = Marks site t g q) :
    (laid site t base fileName).map (folder kind) = (laid site t base g).map (folder kind) := by
  simp only [laid, map_flatMap]
  apply flatMap_congr
  intro c hc
  apply flatMap_congr
  intro i hi
  obtain ⟨hitem, hinner⟩ := h c hc i hi
  rw [assetsAt, assetsAt, hitem]
  by_cases hmarks : Marks site t g i
  · rw [if_pos hmarks, if_pos hmarks]
    rfl
  · rw [if_neg hmarks, if_neg hmarks, map_map, map_map]
    have hheld : ((openIn site t i).filter fun q => !reservedNames.contains q.name).filter
          (Marks site t fileName) =
        ((openIn site t i).filter fun q => !reservedNames.contains q.name).filter (Marks site t g) := by
      apply filter_congr
      intro q hq
      exact hinner q (mem_filter.mp hq).1
    rw [hheld]
    rfl

lemma folder_eq (kind : String) (a : Asset) : a.folder kind = Text.join "/" (kind :: a.inside) := by
  simp [folder, inside]

lemma nodup_folders {w : World} {kind : String} (hkind : IsStep kind) (hstep : IsStep fileName)
    (hnames : w.tree.PlainNames) (hfolder : w.tree.isFolder (site.home.join base).names) :
    ((laid site w.tree base fileName).map (folder kind)).Nodup := by
  have hpaths : ((laid site w.tree base fileName).map Asset.path).Nodup := nodup_laid hstep base
  apply hpaths.of_map.map_on
  intro a ha b hb hab
  have hsplit {c : Asset} (hc : c ∈ laid site w.tree base fileName) :
      Text.split "/" (c.folder kind) = kind :: c.inside := by
    apply Text.split_join '/' _ (cons_ne_nil _ _)
    intro n hn
    rcases mem_cons.mp hn with rfl | hn
    · exact hkind.1.2
    · exact (isStep_of_mem_inside hnames hstep hfolder hc n hn).1.2
  have hinside : kind :: a.inside = kind :: b.inside := by
    rw [← hsplit ha, ← hsplit hb, hab]
  apply inj_on_of_nodup_map hpaths ha hb
  rw [(path_of_mem_laid hstep hfolder ha).1, (path_of_mem_laid hstep hfolder hb).1,
    (List.cons.inj hinside).2]

/-- Whether the folders at the levels of assets, two and three below a folder, hold one file exactly if
they hold another. -/
def Paired (t : Tree) (p : Location) (f g : String) : Prop :=
  ∀ l : List String, l.length = 2 ∨ l.length = 3 → ".." ∉ l → t.isFolder (p ++ l) = true →
    (t.exists? (p ++ l ++ [f]) = true ↔ t.exists? (p ++ l ++ [g]) = true)

lemma names_of_mem_openIn {q : Path} (h : q ∈ openIn site t p) :
    ∃ n, n ≠ ".." ∧ (site.home.join q).names = (site.home.join p).names ++ [n] := by
  have hopen := (mem_filter.mp h).2
  obtain ⟨n, rfl⟩ := exists_item_of_mem_openIn h
  exact ⟨n, (ne_dots_of_isHidden (isOpen_item_iff.mp hopen).2).2, join_item _ _ _⟩

lemma Paired.marks_eq {f : String} (h : Paired t (site.home.join base).names f g)
    (hf : IsStep f) (hg : IsStep g) {c i : Path} (hc : c ∈ openIn site t base)
    (hi : i ∈ openIn site t c) : Marks site t f i = Marks site t g i ∧
      ∀ q ∈ openIn site t i, Marks site t f q = Marks site t g q := by
  have hmarks {l : List String} {q : Path} (hl : l.length = 2 ∨ l.length = 3) (hdots : ".." ∉ l)
      (hq : (site.home.join q).names = (site.home.join base).names ++ l)
      (hopen : t.isFolder (site.home.join q).names) : Marks site t f q = Marks site t g q := by
    rw [hq] at hopen
    rw [marks_iff hf, marks_iff hg, hq, Bool.eq_iff_iff]
    exact h l hl hdots hopen
  obtain ⟨n, hn, hcnames⟩ := names_of_mem_openIn hc
  obtain ⟨m, hm, hinames⟩ := names_of_mem_openIn hi
  constructor
  · apply hmarks (l := [n, m]) (.inl rfl) _ _ (isFolder_of_mem_openIn hi)
    · simp [hn.symm, hm.symm]
    · rw [hinames, hcnames, append_assoc]
      rfl
  · intro q hq
    obtain ⟨k, hk, hqnames⟩ := names_of_mem_openIn hq
    apply hmarks (l := [n, m, k]) (.inr rfl) _ _ (isFolder_of_mem_openIn hq)
    · simp [hn.symm, hm.symm, hk.symm]
    · rw [hqnames, hinames, hcnames, append_assoc, append_assoc]
      rfl

/-- If the folders at the levels of assets have metadata exactly where they have the file of an asset,
the search by metadata and the search by files have the same outcome, and no folder comes twice. -/
theorem withMetadata_eq_discover {w : World} {root : Path} (htype : type ∈ ["component", "pipeline"])
    (hnames : w.tree.PlainNames)
    (hpaired : Paired w.tree (site.home.join (root.below (folderOf type))).names (type ++ ".py")
      "metadata.yaml") :
    withMetadata (folderOf type) root site w =
        (List.map (folder (folderOf type)) <$> discover (root.below (folderOf type)) type) site w ∧
      ∀ folders, (withMetadata (folderOf type) root site w).1 = .ok folders → folders.Nodup := by
  obtain ⟨hkind, hfile⟩ := isStep_folderOf htype
  have hmeta : IsStep "metadata.yaml" := by decide
  by_cases hfolder : w.tree.isFolder (site.home.join (root.below (folderOf type))).names = true
  · rw [withMetadata_of_isFolder hfolder, Run.map_apply, discover_of_isFolder type hfolder]
    constructor
    · rw [← map_folder_laid_congr _ fun c hc i hi => hpaired.marks_eq hfile hmeta hc hi]
    · intro folders h
      cases h
      exact nodup_folders hkind hmeta hnames hfolder
  · obtain ⟨e, he⟩ := layout_of_not_isFolder (Bool.not_eq_true _ ▸ hfolder)
    rw [withMetadata, discover, Run.map_apply, bind_of_eq (Run.exists?_apply _ site w),
      bind_of_eq (Run.exists?_apply _ site w)]
    by_cases hthere : w.tree.exists? (site.home.join (root.below (folderOf type))).names = true
    · rw [if_pos hthere, if_pos hthere, bind_apply, he, he]
      exact ⟨rfl, fun folders h => by cases h⟩
    · rw [if_neg hthere, if_neg hthere]
      refine ⟨rfl, fun folders h => ?_⟩
      cases h
      exact nodup_nil

lemma paired_of_forall_folders {p : Location} {f : String} (hp : ".." ∉ p)
    (h : ∀ k ∈ t.folders, t.exists? (k ++ [f]) = t.exists? (k ++ [g])) : Paired t p f g := by
  intro l _ hl hfolder
  obtain ⟨k, hk, hmem⟩ := (isFolder_iff t _).mp hfolder
  have hdots : ".." ∉ p ++ l := by
    rw [mem_append, not_or]
    exact ⟨hp, hl⟩
  have hplace : k = p ++ l := by simpa using eq_append_of_follow hdots hk
  rw [← hplace, h k hmem]

theorem withMetadata_eq_discover_workshop :
    withMetadata "components" ⟨"/", ["work"]⟩ workshopSite { tree := workshop } =
        (List.map (folder "components") <$> discover (Path.below ⟨"/", ["work"]⟩ "components") "component")
          workshopSite { tree := workshop } ∧
      ∃ folders, withMetadata "components" ⟨"/", ["work"]⟩ workshopSite { tree := workshop } =
        (.ok folders, { tree := workshop }) ∧ folders.Nodup ∧
        "components/training/trees/boosting" ∈ folders := by
  have hpaired : Paired workshop
      (workshopSite.home.join (workshopSite.repository.below (folderOf "component"))).names
      ("component" ++ ".py") "metadata.yaml" :=
    paired_of_forall_folders (by decide +kernel) (by decide +kernel)
  have hsame := withMetadata_eq_discover (w := { tree := workshop }) (by decide) (by decide) hpaired
  have houtcome := withMetadata_of_isFolder (w := { tree := workshop }) isFolder_workshop
  refine ⟨hsame.1, _, houtcome, hsame.2 _ (congrArg Prod.fst houtcome), ?_⟩
  exact mem_map.mpr ⟨_, boosting_mem_laid (by decide), by decide⟩

end Asset

end AssetCatalog
