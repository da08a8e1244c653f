import AssetCatalog.Compile.Entrypoint
import AssetCatalog.Proofs.SkeletonDiscovery

/-!
# What a passed validation says

Each file compiles or is no source; only without warnings are all of them compiled.
-/

namespace AssetCatalog

open List World

open Run (bind_apply bind_of_eq pure_apply read_apply)

variable {w : World} {files : List Path}

lemma length_printed (w : World) (ls : List String) :
    (w.printed ls).output.length = w.output.length + (ls.map (·.length + 1)).sum := by
  induction ls generalizing w with
  | nil => simp
  | cons l ls ih =>
    have hsplit : w.printed (l :: ls) = (w.printed [l]).printed ls := by simp
    rw [hsplit, ih, map_cons, sum_cons]
    simp only [printed, String.length_append, map_cons, map_nil, String.join_cons,
      String.join_nil, String.append_empty]
    have hbreak : "\n".length = 1 := by decide
    omega

lemma printed_cons_eq_iff {l : String} {ls : List String} :
    w.printed (l :: ls) = w.printed [l] ↔ ls = [] := by
  constructor
  · intro h
    have hlength := congrArg (fun v : World => v.output.length) h
    simp only [length_printed, map_cons, sum_cons, map_nil, sum_nil] at hlength
    cases ls with
    | nil => rfl
    | cons m ms =>
      simp only [map_cons, sum_cons] at hlength
      omega
  · rintro rfl
    rfl

namespace Asset

open Source

variable {site : Site}

def metadataFolders (site : Site) (t : Tree) (kind : String) (base : Path) : Except Fault (List String) :=
  if t.exists? (site.home.join (base.below kind)).names then
    (t.namesIn (site.home.join (base.below kind)).names).map fun _ =>
      (laid site t (base.below kind) "metadata.yaml").map (folder kind)
  else .ok []

lemma withMetadata_apply (kind : String) (base : Path) (w : World) :
    withMetadata kind base site w = (metadataFolders site w.tree kind base, w) := by
  by_cases hfolder : w.tree.isFolder (site.home.join (base.below kind)).names
  · obtain ⟨names, hnames, -⟩ := Tree.namesIn_of_isFolder hfolder
    rw [withMetadata_of_isFolder hfolder, metadataFolders, Tree.exists?, hfolder, Bool.or_true, if_pos rfl,
      hnames]
    rfl
  · rw [Bool.not_eq_true] at hfolder
    obtain ⟨e, he⟩ := Tree.namesIn_of_notFolder hfolder
    rw [withMetadata, bind_of_eq (Run.exists?_apply _ site w), metadataFolders]
    split
    · simp only [layout, openFolders, Run.folderItems, bind_apply, Run.locate_apply, Run.get_apply,
        Run.ofExcept_apply, he]
      rfl
    · rfl

def sourceAt (site : Site) (t : Tree) (file : Path) : Except Fault (List Stmt) :=
  ((t.read (site.home.join file).names).bind Content.lineText).bind Stmt.parse

lemma parseFile_apply (file : Path) (w : World) :
    parseFile file site w = (sourceAt site w.tree file, w) := by
  rw [parseFile, bind_apply, Run.readText_apply, sourceAt]
  rcases (w.tree.read (site.home.join file).names).bind Content.lineText with e | s
  · rfl
  · exact Run.ofExcept_apply site w _

def declared (body : List Stmt) : List Definition :=
  (Stmt.definitions body).filter fun d => d.decorators.any isAssetDecorator

lemma isSome_decoratedKind (d : Definition) :
    (decoratedKind d).isSome = d.decorators.any isAssetDecorator := by
  rw [decoratedKind]
  induction d.decorators with
  | nil => rfl
  | cons e es ih =>
    rw [any_cons, ← ih, isAssetDecorator]
    rcases hname : decoratorName e with _ | n
    · rw [filterMap_cons_none hname, Bool.false_or]
    · rw [filterMap_cons_some hname, findSome?_cons]
      dsimp only
      cases componentDecorators.contains n <;> cases pipelineDecorators.contains n <;> rfl

lemma mem_decoratedNames_iff (body : List Stmt) (name : String) :
    name ∈ (decoratedNames body).components ++ (decoratedNames body).pipelines ↔
      ∃ d ∈ declared body, d.name = name := by
  have hfound : (∃ k, (name, k) ∈ (Stmt.definitions body).filterMap fun d =>
      (decoratedKind d).map fun k => (d.name, k)) ↔ ∃ d ∈ declared body, d.name = name := by
    simp only [declared, mem_filter, ← isSome_decoratedKind, mem_filterMap, Option.map_eq_some_iff,
      Option.isSome_iff_exists, Prod.mk.injEq]
    grind
  rw [← hfound, decoratedNames]
  simp only [mem_append, mem_map, mem_filter]
  constructor
  · rintro (⟨⟨_, k⟩, ⟨hmem, -⟩, rfl⟩ | ⟨⟨_, k⟩, ⟨hmem, -⟩, rfl⟩) <;> exact ⟨k, hmem⟩
  · rintro ⟨k, hk⟩
    cases k with
    | true => exact .inl ⟨_, ⟨hk, rfl⟩, rfl⟩
    | false => exact .inr ⟨_, ⟨hk, rfl⟩, rfl⟩

/-- Whether a file is read and is no source. -/
def noSource (site : Site) (t : Tree) (file : Path) : Bool :=
  match sourceAt site t file with
  | .error .source | .error (.notText _) => true
  | _ => false

def warning (file : Path) : String := s!"  Warning: Could not parse {file.text}"

lemma decoratedNamesOf_apply (file : Path) (w : World) : decoratedNamesOf file site w =
      if noSource site w.tree file then (.ok none, w.printed [warning file])
      else ((sourceAt site w.tree file).map fun body => some (decoratedNames body), w) := by
  rw [decoratedNamesOf, bind_apply, Run.attempt_apply, parseFile_apply, noSource]
  rcases sourceAt site w.tree file with e | body
  · cases e <;> rfl
  · rfl

end Asset

namespace Compile

open Source Asset

variable {site : Site}

/-! ## The listed files -/

def filesOf (site : Site) (t : Tree) (kind fileName : String) (roots : List Path) :
    Except Fault (List Path) := do
  let folders := (← metadataFolders site t kind site.repository).map Path.ofText
  pure (((folders.filter (requested site.repository roots)).map fun f => f.below fileName).filter fun f =>
    t.exists? (site.home.join f).names)

lemma entrypointsOf_apply (kind fileName : String) (roots : List Path) (w : World) :
    entrypointsOf kind fileName roots site w = (filesOf site w.tree kind fileName roots, w) := by
  rw [entrypointsOf, bind_of_eq (read_apply site w), bind_apply, withMetadata_apply, filesOf]
  rcases metadataFolders site w.tree kind site.repository with e | folders
  · rfl
  · exact Run.filterM_apply (fun f => Run.exists?_apply f site w) _

def listed (site : Site) (t : Tree) (directories : List String) : Except Fault (List Path) := do
  let roots := (if directories.isEmpty then ["components", "pipelines"] else directories).map
    Path.ofText
  let components ← filesOf site t "components" "component.py" roots
  let pipelines ← filesOf site t "pipelines" "pipeline.py" roots
  pure (components ++ pipelines)

lemma entrypoints_apply (directories : List String) (w : World) :
    entrypoints directories site w = (listed site w.tree directories, w) := by
  rw [entrypoints, bind_apply, entrypointsOf_apply, listed]
  rcases filesOf site w.tree "components" "component.py" _ with e | components
  · rfl
  · dsimp only
    rw [except_ok_bind, bind_apply, entrypointsOf_apply]
    rcases filesOf site w.tree "pipelines" "pipeline.py" _ with e | pipelines <;> rfl

/-! ## One file -/

def Compiles (site : Site) (module function : String) : Prop :=
  ∃ members member, Run.imported site module = .ok members ∧
    members.find? (fun m => m.name = function) = some member ∧ member.compileError = none

lemma compileFunction_apply (site : Site) (module function : String) (w : World) :
    ∃ r, compileFunction module function site w = (r, w) ∧
      (r = .ok () ↔ Compiles site module function) := by
  rw [compileFunction, bind_apply, Run.importModule_apply]
  simp only [Compiles]
  rcases Run.imported site module with e | members
  · exact ⟨.error e, rfl, by simp⟩
  · dsimp only
    rcases hfind : members.find? (fun m => m.name = function) with _ | member
    · refine ⟨.error (.noMember s!"module '{module}' has no attribute '{function}'"), ?_, by simp [hfind]⟩
      rw [hfind]
      rfl
    rcases herror : member.compileError with _ | e
    · refine ⟨.ok (), ?_, by simp [hfind, herror]⟩
      rw [hfind]
      dsimp only
      rw [herror]
      rfl
    · refine ⟨.error (.failed e), ?_, by simp [hfind, herror]⟩
      rw [hfind]
      dsimp only
      rw [herror]
      rfl

lemma compileErrors_apply (site : Site) (module : String) (functions : List String) (w : World) :
    ∃ errors, compileErrors module functions site w = (.ok errors, w) ∧
      (errors = [] ↔ ∀ f ∈ functions, Compiles site module f) := by
  induction functions with
  | nil => exact ⟨[], rfl, by simp⟩
  | cons f fs ih =>
    obtain ⟨errors, hrest, herrors⟩ := ih
    obtain ⟨r, hf, hr⟩ := compileFunction_apply site module f w
    rw [compileErrors, bind_apply, Run.attempt_apply, hf]
    rcases r with e | _
    · refine ⟨[s!"{module}.{f}: {e.message}"] ++ errors, ?_, ?_⟩
      · dsimp only
        rw [bind_of_eq (pure_apply site w _), bind_of_eq hrest, pure_apply]
      · have hnot : ¬ Compiles site module f := by simpa using hr
        simp [hnot]
    · refine ⟨[] ++ errors, ?_, ?_⟩
      · dsimp only
        rw [bind_of_eq (pure_apply site w _), bind_of_eq hrest, pure_apply]
      · rw [nil_append, forall_mem_cons, herrors]
        exact (and_iff_right (hr.mp rfl)).symm

lemma compileErrors_decoratedNames (site : Site) (module : String) (body : List Stmt) (w : World) :
    ∃ errors, compileErrors module ((decoratedNames body).components ++ (decoratedNames body).pipelines)
        site w = (.ok errors, w) ∧
      (errors = [] ↔ ∀ d ∈ declared body, Compiles site module d.name) := by
  obtain ⟨errors, hrun, herrors⟩ := compileErrors_apply site module
    ((decoratedNames body).components ++ (decoratedNames body).pipelines) w
  refine ⟨errors, hrun, herrors.trans ?_⟩
  simp only [mem_decoratedNames_iff]
  exact ⟨fun h d hd => h _ ⟨d, hd, rfl⟩, fun h _ ⟨d, hd, hname⟩ => hname ▸ h d hd⟩

lemma decoratedNames_eq_nil_iff (body : List Stmt) :
    (decoratedNames body).components ++ (decoratedNames body).pipelines = [] ↔ declared body = [] := by
  simp only [eq_nil_iff_forall_not_mem, mem_decoratedNames_iff]
  exact ⟨fun h d hd => h d.name ⟨d, hd, rfl⟩, fun h _ ⟨d, hd, _⟩ => h d hd⟩

/-- What became of a file says what was found there. -/
def Checked (site : Site) (t : Tree) (file : Path) : FileOutcome → Prop
  | .nothing => noSource site t file = true ∨ ∃ body, sourceAt site t file = .ok body ∧ declared body = []
  | .compiled => ∃ body, sourceAt site t file = .ok body ∧ declared body ≠ [] ∧
      ∀ d ∈ declared body, Compiles site (importName file) d.name
  | .failed _ => ∃ body, sourceAt site t file = .ok body ∧
      ∃ d ∈ declared body, ¬Compiles site (importName file) d.name

def warnings (site : Site) (t : Tree) (files : List Path) : List String :=
  (files.filter (noSource site t)).map warning

lemma compileFile_apply (file : Path) (w : World) :
    (∃ o, compileFile file site w = (.ok o, w.printed (warnings site w.tree [file])) ∧
      Checked site w.tree file o) ∨
    ∃ e, compileFile file site w = (.error e, w) ∧ sourceAt site w.tree file = .error e ∧
      noSource site w.tree file = false := by
  rw [compileFile, bind_apply, decoratedNamesOf_apply]
  cases hno : noSource site w.tree file with
  | true =>
    exact .inl ⟨.nothing, by simp [warnings, hno], .inl hno⟩
  | false =>
    have hsilent : warnings site w.tree [file] = [] := by simp [warnings, hno]
    rw [hsilent, printed_nil, if_neg Bool.false_ne_true]
    rcases hbody : sourceAt site w.tree file with e | body
    · exact .inr ⟨e, rfl, rfl, rfl⟩
    left
    obtain ⟨errors, hrun, herrors⟩ := compileErrors_decoratedNames site (importName file) body w
    have hnil := decoratedNames_eq_nil_iff body
    dsimp only [Except.map]
    generalize (decoratedNames body).components ++ (decoratedNames body).pipelines = names at hrun hnil ⊢
    cases names with
    | nil => exact ⟨.nothing, rfl, .inr ⟨body, hbody, hnil.mp rfl⟩⟩
    | cons f fs =>
      have hdeclared : declared body ≠ [] := fun h => cons_ne_nil f fs (hnil.mpr h)
      dsimp only
      rw [bind_of_eq hrun]
      cases errors with
      | nil => exact ⟨.compiled, rfl, body, hbody, hdeclared, herrors.mp rfl⟩
      | cons e es =>
        refine ⟨.failed (e :: es), rfl, body, hbody, ?_⟩
        simpa using mt herrors.mpr (cons_ne_nil e es)

/-! ## All files -/

/-- A file that is a source in which everything declared compiles. -/
def Sound (site : Site) (t : Tree) (file : Path) : Prop :=
  ∃ body, sourceAt site t file = .ok body ∧ ∀ d ∈ declared body, Compiles site (importName file) d.name

def Declares (site : Site) (t : Tree) (file : Path) : Prop :=
  ∃ body, sourceAt site t file = .ok body ∧ declared body ≠ []

variable {t : Tree} {file : Path}

lemma Sound.noSource_eq_false (h : Sound site t file) : noSource site t file = false := by
  obtain ⟨body, hbody, -⟩ := h
  rw [noSource, hbody]

lemma Checked.ne_failed_iff {o : FileOutcome} (h : Checked site t file o) :
    (∀ errors, o ≠ .failed errors) ↔ Sound site t file ∨ noSource site t file := by
  cases o with
  | nothing =>
    refine ⟨fun _ => ?_, fun _ _ => by simp⟩
    rcases h with hno | ⟨body, hbody, hnone⟩
    · exact .inr hno
    · exact .inl ⟨body, hbody, by simp [hnone]⟩
  | compiled =>
    obtain ⟨body, hbody, -, hall⟩ := h
    exact ⟨fun _ => .inl ⟨body, hbody, hall⟩, fun _ _ => by simp⟩
  | failed errors =>
    obtain ⟨body, hbody, d, hd, hnot⟩ := h
    refine ⟨fun h => absurd rfl (h errors), ?_⟩
    rintro (⟨body', hbody', hall⟩ | hno)
    · cases hbody.symm.trans hbody'
      exact absurd (hall d hd) hnot
    · simp [noSource, hbody] at hno

lemma Checked.eq_compiled_iff {o : FileOutcome} (h : Checked site t file o)
    (hpassed : ∀ errors, o ≠ .failed errors) : o = .compiled ↔ Declares site t file := by
  cases o with
  | nothing =>
    refine ⟨fun h => by simp at h, ?_⟩
    rintro ⟨body, hbody, hdeclared⟩
    rcases h with hno | ⟨body', hbody', hnone⟩
    · simp [noSource, hbody] at hno
    · cases hbody.symm.trans hbody'
      exact absurd hnone hdeclared
  | compiled =>
    obtain ⟨body, hbody, hdeclared, -⟩ := h
    exact ⟨fun _ => ⟨body, hbody, hdeclared⟩, fun _ => rfl⟩
  | failed errors => exact absurd rfl (hpassed errors)

lemma verdict_eq_none_iff (home : Path) (results : List (Path × FileOutcome)) :
    verdict home results = none ↔
      (∀ r ∈ results, ∀ errors, r.2 ≠ .failed errors) ∧ ∃ r ∈ results, r.2 = .compiled := by
  rw [verdict]
  generalize hlines : results.filterMap _ = failures
  have hfailures : failures = [] ↔ ∀ r ∈ results, ∀ errors, r.2 ≠ .failed errors := by
    rw [← hlines, filterMap_eq_nil_iff]
    apply forall₂_congr
    rintro ⟨file, o⟩ -
    cases o <;> simp
  rw [← hfailures]
  cases failures with
  | nil => simp
  | cons f fs => simp

lemma verdict_eq_none_iff_of_checked (home : Path) {results : List (Path × FileOutcome)}
    (h : List.Forall₂ (fun f r => Checked site t f r.2) files results) :
    verdict home results = none ↔
      (∀ f ∈ files, Sound site t f ∨ noSource site t f) ∧ ∃ f ∈ files, Declares site t f := by
  have hpassed : (∀ r ∈ results, ∀ errors, r.2 ≠ .failed errors) ↔
      ∀ f ∈ files, Sound site t f ∨ noSource site t f := by
    induction h with
    | nil => simp
    | cons hfile _ ih => simp only [forall_mem_cons, ih, hfile.ne_failed_iff]
  rw [verdict_eq_none_iff, ← hpassed]
  clear hpassed
  apply and_congr_right
  intro hall
  induction h with
  | nil => simp
  | cons hfile _ ih =>
    obtain ⟨hfirst, hrest⟩ := forall_mem_cons.mp hall
    rw [exists_mem_cons_iff, exists_mem_cons_iff, hfile.eq_compiled_iff hfirst, ih hrest]

lemma compileFiles_apply (files : List Path) (w : World) :
    (∃ results, files.mapM (fun f => (f, ·) <$> compileFile f) site w =
        (.ok results, w.printed (warnings site w.tree files)) ∧
      List.Forall₂ (fun f r => Checked site w.tree f r.2) files results) ∨
    ∃ e v, files.mapM (fun f => (f, ·) <$> compileFile f) site w = (.error e, v) ∧
      ∃ f ∈ files, sourceAt site w.tree f = .error e ∧ noSource site w.tree f = false := by
  induction files generalizing w with
  | nil => exact .inl ⟨[], by simp [warnings], .nil⟩
  | cons f fs ih =>
    rw [mapM_cons, bind_apply, Run.map_apply]
    rcases compileFile_apply f w with ⟨o, hf, hchecked⟩ | ⟨e, hf, he, hno⟩
    · rw [hf]
      dsimp only
      rw [bind_apply]
      rcases ih (w.printed (warnings site w.tree [f])) with ⟨results, hfs, hall⟩ | ⟨e, v, hfs, hfault⟩
      · have hwarnings : warnings site w.tree (f :: fs) =
            warnings site w.tree [f] ++ warnings site w.tree fs := by
          simp only [warnings, ← map_append, ← filter_append, singleton_append]
        rw [hfs, hwarnings, printed_printed, printed_tree]
        exact .inl ⟨(f, o) :: results, rfl, .cons hchecked hall⟩
      · obtain ⟨g, hg, hfault⟩ := hfault
        rw [hfs]
        exact .inr ⟨e, v, rfl, g, mem_cons_of_mem f hg, hfault⟩
    · rw [hf]
      exact .inr ⟨e, w, rfl, f, mem_cons_self, he, hno⟩

def heading : String := "\nValidating component/pipeline compilation..."

lemma validateCompilation_of_listed {directories : List String}
    (hcompiler : site.compilerPresent) (hfiles : listed site w.tree directories = .ok files) :
    validateCompilation directories site w =
      (files.mapM (fun f => (f, ·) <$> compileFile f) >>= fun results =>
        pure (verdict site.home results)) site (w.printed [heading]) := by
  have hentrypoints : entrypoints directories site (w.printed [heading]) =
      (.ok files, w.printed [heading]) := by
    rw [entrypoints_apply, printed_tree, hfiles]
  rw [validateCompilation, ← heading, bind_of_eq (Run.print_apply site w heading),
    bind_of_eq (read_apply site _), hcompiler, Bool.not_true, if_neg Bool.false_ne_true,
    bind_of_eq hentrypoints]

lemma listed_of_validateCompilation {directories : List String} {w' : World}
    (h : validateCompilation directories site w = (.ok none, w')) :
    site.compilerPresent ∧ ∃ files, listed site w.tree directories = .ok files := by
  rw [validateCompilation, bind_of_eq (Run.print_apply site w _),
    bind_of_eq (read_apply site _)] at h
  cases hcompiler : site.compilerPresent with
  | false =>
    rw [hcompiler] at h
    cases h
  | true =>
    rw [hcompiler, Bool.not_true, if_neg Bool.false_ne_true] at h
    obtain ⟨files, v, hfiles, -⟩ := Run.bind_eq_ok h
    rw [entrypoints_apply] at hfiles
    cases hlisted : listed site w.tree directories with
    | ok files => exact ⟨rfl, files, rfl⟩
    | error e =>
      rw [printed_tree, hlisted] at hfiles
      cases hfiles

lemma validateCompilation_eq_none_iff (directories : List String) (site : Site) (w w' : World) :
    validateCompilation directories site w = (.ok none, w') ↔
      site.compilerPresent ∧ ∃ files, entrypoints directories site w = (.ok files, w) ∧
        (∀ f ∈ files, Sound site w.tree f ∨ noSource site w.tree f) ∧
        (∃ f ∈ files, Declares site w.tree f) ∧
        w' = w.printed (heading :: warnings site w.tree files) := by
  simp only [entrypoints_apply]
  constructor
  · intro h
    obtain ⟨hcompiler, files, hfiles⟩ := listed_of_validateCompilation h
    refine ⟨hcompiler, files, by rw [hfiles], ?_⟩
    rw [validateCompilation_of_listed hcompiler hfiles, bind_apply] at h
    rcases compileFiles_apply files (w.printed [heading]) with
      ⟨results, hresults, hchecked⟩ | ⟨e, v, hfault, -⟩
    · rw [hresults, printed_printed] at h
      obtain ⟨hverdict, rfl⟩ := Prod.mk.inj h
      obtain ⟨hall, hdeclares⟩ :=
        (verdict_eq_none_iff_of_checked site.home hchecked).mp (Except.ok.inj hverdict)
      exact ⟨hall, hdeclares, rfl⟩
    · rw [hfault] at h
      cases h
  · rintro ⟨hcompiler, files, hfiles, hall, hdeclares, rfl⟩
    obtain ⟨hfiles, -⟩ := Prod.mk.inj hfiles
    rw [validateCompilation_of_listed hcompiler hfiles, bind_apply]
    rcases compileFiles_apply files (w.printed [heading]) with
      ⟨results, hresults, hchecked⟩ | ⟨e, v, -, f, hf, he, hno⟩
    · have hverdict := (verdict_eq_none_iff_of_checked site.home hchecked).mpr ⟨hall, hdeclares⟩
      rw [hresults, printed_printed]
      dsimp only
      rw [hverdict]
      rfl
    · rcases hall f hf with ⟨body, hbody, -⟩ | hsource
      · cases hbody.symm.trans he
      · cases hsource.symm.trans hno

lemma forall_sound_iff (w : World) (h : ∀ f ∈ files, Sound site t f ∨ noSource site t f) :
    (∀ f ∈ files, Sound site t f) ↔ w.printed (heading :: warnings site t files) = w.printed [heading] := by
  rw [printed_cons_eq_iff, warnings, map_eq_nil_iff, filter_eq_nil_iff]
  apply forall₂_congr
  intro f hf
  refine ⟨fun hsound => by simp [hsound.noSource_eq_false], (h f hf).resolve_right⟩

/-- Validation passes exactly if every listed file compiles or is no source, and some file declares an
asset. What it prints are warnings about the files that are no source: it is silent exactly if every
listed file compiles. -/
theorem validateCompilation_passes_iff (directories : List String) (site : Site) (w w' : World) :
    validateCompilation directories site w = (.ok none, w') ↔
      site.compilerPresent = true ∧ ∃ files, entrypoints directories site w = (.ok files, w) ∧
        (∀ f ∈ files, Sound site w.tree f ∨ noSource site w.tree f = true) ∧
        (∃ f ∈ files, Declares site w.tree f) ∧
        w' = w.printed (heading :: warnings site w.tree files) ∧
        ((∀ f ∈ files, Sound site w.tree f) ↔ w' = w.printed [heading]) := by
  rw [validateCompilation_eq_none_iff]
  constructor
  · rintro ⟨hcompiler, files, hfiles, hall, hdeclares, rfl⟩
    exact ⟨hcompiler, files, hfiles, hall, hdeclares, rfl, forall_sound_iff w hall⟩
  · rintro ⟨hcompiler, files, hfiles, hall, hdeclares, rfl, -⟩
    exact ⟨hcompiler, files, hfiles, hall, hdeclares, rfl⟩

def loaderAndParser (parser : String) : World where
  tree :=
    { files :=
        [ (["components", "data", "loader", "component.py"], .text "@component\ndef load():\n  pass\n"),
          (["components", "data", "loader", "metadata.yaml"], .text "name: loader\n"),
          (["pipelines", "data", "parser", "metadata.yaml"], .text "name: parser\n"),
          (["pipelines", "data", "parser", "pipeline.py"], .text parser)]
      folders := [[], ["components"], ["components", "data"], ["components", "data", "loader"],
        ["pipelines"], ["pipelines", "data"], ["pipelines", "data", "parser"]] }

def loaderSite : Site :=
  { Run.rootSite with
    modules := [("components.data.loader.component", .members [{ name := "load", componentSpec := true }])] }

def loaderFile : Path := ⟨"", ["components", "data", "loader", "component.py"]⟩

def parserFile : Path := ⟨"", ["pipelines", "data", "parser", "pipeline.py"]⟩

theorem validateCompilation_passes_loader : entrypoints [] loaderSite (loaderAndParser "") =
        (.ok [loaderFile, parserFile], loaderAndParser "") ∧
      Sound loaderSite (loaderAndParser "").tree loaderFile ∧
      Sound loaderSite (loaderAndParser "").tree parserFile := by
  have hpassed := Run.eq_ok_of_toOption (r := validateCompilation [] loaderSite (loaderAndParser ""))
    (a := none) (by decide +kernel)
  obtain ⟨-, files, hfiles, hall, -⟩ := (validateCompilation_passes_iff [] loaderSite _ _).mp hpassed
  have hlisted : (entrypoints [] loaderSite (loaderAndParser "")).1 = .ok [loaderFile, parserFile] := by
    decide +kernel
  rw [hfiles] at hlisted
  cases hlisted
  have hsources : noSource loaderSite (loaderAndParser "").tree loaderFile = false ∧
      noSource loaderSite (loaderAndParser "").tree parserFile = false := by
    decide +kernel
  exact ⟨hfiles, (hall loaderFile (by simp)).resolve_right (by simp [hsources.1]),
    (hall parserFile (by simp)).resolve_right (by simp [hsources.2])⟩

/-- A listed file that cannot be parsed does not keep validation from passing. -/
theorem validateCompilation_passes_unparsed :
    (validateCompilation [] loaderSite (loaderAndParser "@pipeline\ndef parse(:\n")).1 = .ok none ∧
      (entrypoints [] loaderSite (loaderAndParser "@pipeline\ndef parse(:\n")).1 =
        .ok [loaderFile, parserFile] ∧
      noSource loaderSite (loaderAndParser "@pipeline\ndef parse(:\n").tree parserFile = true := by
  decide +kernel

end Compile

end AssetCatalog
