import AssetCatalog.Compile.Check
import AssetCatalog.Proofs.CommandLine
import AssetCatalog.Proofs.MetadataSchema

/-!
# What the compile check selects

The schema does not take the flag that asks for compilation.
-/

namespace AssetCatalog

open List Value World

open Run (bind_apply bind_of_eq rootSite)

def World.logged (w : World) (es : List LogEntry) : World := { w with log := w.log ++ es }

@[simp] lemma World.logged_nil (w : World) : w.logged [] = w := by simp [World.logged]

@[simp] lemma World.logged_logged (w : World) (es fs : List LogEntry) :
    (w.logged es).logged fs = w.logged (es ++ fs) := by simp [World.logged]

@[simp] lemma World.logged_tree (w : World) (es : List LogEntry) : (w.logged es).tree = w.tree := rfl

namespace Metadata

variable {site : Site} {w : World}

/-! ## The flag -/

lemma wantsCompilation_of_checkSchema {m : Value} (h : checkSchema m = .ok ()) (flagless : Bool) :
    wantsCompilation flagless m = .ok flagless := by
  obtain ⟨es, rfl, hvalid⟩ := exists_isValid_of_checkSchema h
  rw [wantsCompilation, getOrNull_map, except_ok_bind]
  cases hci : named "ci" es with
  | none => rfl
  | some v =>
    obtain ⟨probe, rfl, _⟩ := hvalid.ci v (mem_of_named_eq_some hci)
    simp [orElse, truthy, mentions, named_cons]

/-! ## Files of metadata -/

def valueAt (site : Site) (t : Tree) (file : Path) : Except Fault Value := do
  let c ← t.read (site.home.join file).names
  let s ← c.lineText
  Yaml.load s

def HoldsValid (site : Site) (t : Tree) (file : Path) : Prop :=
  (valueAt site t file >>= checkSchema) = .ok ()
deriving Decidable

/-- Everything below the folders of assets that has the name of a metadata file is one, and its
metadata keeps to the schema. -/
def AllValid (site : Site) (t : Tree) : Prop :=
  ∀ folder ∈ ["components", "pipelines"].map site.repository.below,
    ∀ names ∈ t.allBelow (site.home.join folder).names, names.getLast? = some fileName →
      HoldsValid site t { folder with names := folder.names ++ names }
deriving Decidable

lemma loadYaml_apply (file : Path) (site : Site) (w : World) :
    loadYaml file site w = (valueAt site w.tree file, w) := by
  rw [loadYaml, bind_apply, Run.readText_apply, valueAt]
  rcases w.tree.read (site.home.join file).names with e | c
  · rfl
  · rcases hc : c.lineText with e | s
    · simp [Except.bind, hc, bind]
    · simp [Except.bind, hc]

lemma load_of_holdsValid {file : Path} (h : HoldsValid site w.tree file) :
    ∃ m, load file site w = (.ok m, w) ∧ checkSchema m = .ok () := by
  obtain ⟨m, hm, hvalid⟩ := except_bind_eq_ok.mp h
  refine ⟨m, ?_, hvalid⟩
  obtain ⟨es, rfl, hes⟩ := exists_isValid_of_checkSchema hvalid
  have htruthy : (Value.map es).truthy := by
    have hne : es ≠ [] := by
      rintro rfl
      simpa using hes.fields
    simpa [truthy] using hne
  rw [load, bind_apply, loadYaml_apply, hm]
  simp [orElse, htruthy, isMap]

def metadataBelow (site : Site) (t : Tree) (folder : Path) : List Path :=
  Path.sortByText (((t.allBelow (site.home.join folder).names).filter fun names =>
    names.getLast?.getD "" = fileName).map fun names => { folder with names := folder.names ++ names })

def metadataFiles (site : Site) (t : Tree) : List (Path × String) :=
  (metadataBelow site t (site.repository.below "components")).map (·, "component") ++
    (metadataBelow site t (site.repository.below "pipelines")).map (·, "pipeline")

lemma discover_apply (site : Site) (w : World) :
    discover site w = (.ok (metadataFiles site w.tree), w) := by
  have hsearch (folder : Path) :
      Run.search folder (· = fileName) site w = (.ok (metadataBelow site w.tree folder), w) := by
    simp [Run.search, metadataBelow]
  simp [discover, hsearch, metadataFiles]

lemma holdsValid_of_mem_metadataBelow {t : Tree} (h : AllValid site t) {folder p : Path}
    (hfolder : folder ∈ ["components", "pipelines"].map site.repository.below)
    (hp : p ∈ metadataBelow site t folder) : HoldsValid site t p := by
  rw [metadataBelow, Path.sortByText, mem_mergeSort, mem_map] at hp
  obtain ⟨names, hnames, rfl⟩ := hp
  rw [mem_filter, decide_eq_true_iff] at hnames
  apply h folder hfolder names hnames.1
  cases hlast : names.getLast? with
  | none =>
    rw [hlast] at hnames
    exact absurd hnames.2 (by decide)
  | some n =>
    rw [hlast] at hnames
    exact congrArg some hnames.2

lemma holdsValid_of_mem_metadataFiles {t : Tree} (h : AllValid site t) {e : Path × String}
    (he : e ∈ metadataFiles site t) : HoldsValid site t e.1 := by
  rw [metadataFiles, mem_append, mem_map, mem_map] at he
  rcases he with ⟨p, hp, rfl⟩ | ⟨p, hp, rfl⟩
  · exact holdsValid_of_mem_metadataBelow h (by simp) hp
  · exact holdsValid_of_mem_metadataBelow h (by simp) hp

/-! ## Targets -/

def skipping (file : Path) : LogEntry :=
  ⟨.debug, s!"Skipping {file.text} (compile_check disabled)."⟩

lemma targetOf_of_holdsValid {file : Path} (h : HoldsValid site w.tree file) (filters : List Path)
    (kind : String) :
    targetOf false filters file kind site w = (.ok none, w.logged [skipping file]) := by
  obtain ⟨m, hm, hvalid⟩ := load_of_holdsValid h
  rw [targetOf, bind_of_eq hm]
  simp [wantsCompilation_of_checkSchema hvalid, skipping, World.logged]

lemma mapM_targetOf_of_holdsValid {discovered : List (Path × String)} (filters : List Path)
    (h : ∀ e ∈ discovered, HoldsValid site w.tree e.1) :
    discovered.mapM (fun e => targetOf false filters e.1 e.2) site w =
      (.ok (discovered.map fun _ => none), w.logged (discovered.map fun e => skipping e.1)) := by
  induction discovered generalizing w with
  | nil => simp
  | cons e es ih =>
    obtain ⟨he, hes⟩ := forall_mem_cons.mp h
    have hrest := ih (w := w.logged [skipping e.1]) hes
    simp [targetOf_of_holdsValid he, hrest]

lemma targets_of_holdsValid {discovered : List (Path × String)}
    (h : ∀ e ∈ discovered, HoldsValid site w.tree e.1) (filters : List String) :
    targets discovered false filters site w =
      (.ok [], w.logged (discovered.map fun e => skipping e.1)) := by
  rw [targets, bind_apply, Run.read_apply]
  dsimp only
  rw [bind_apply, mapM_targetOf_of_holdsValid _ h]
  simp

end Metadata

namespace Compile

open Metadata

lemma run_nil (failFast : Bool) (site : Site) (w : World) : run failFast [] site w =
      (.ok 0, w.logged [⟨.info, "No targets discovered for compile check."⟩]) := by
  simp [run, World.logged]

lemma read_checkArguments {words : List String} {args : Arguments} {site : Site} {w : World}
    (h : (CommandLine.read checkArguments words [] site w).1 = .ok args) :
    CommandLine.read checkArguments words [] site w = (.ok args, w) := by
  have hkeeps : ∀ a ∈ checkArguments, CommandLine.Keeps (· = w) a := by
    intro a ha word
    simp only [checkArguments, mem_cons, not_mem_nil, or_false] at ha
    rcases ha with rfl | rfl | rfl | rfl <;> exact .pure trivial
  obtain ⟨hworld, _⟩ := CommandLine.read_ensures words hkeeps (forall_mem_nil _) site w rfl
  exact Prod.ext h hworld

lemma checkCommand_of_allValid {site : Site} {w : World} (h : AllValid site w.tree)
    {words : List String} {args : Arguments}
    (hargs : (CommandLine.read checkArguments words [] site w).1 = .ok args)
    (hflagless : args.has "--include-flagless" = false) :
    checkCommand words site w = (.ok 0, w.logged ((metadataFiles site w.tree).map
      (fun e => skipping e.1) ++ [⟨.info, "No targets discovered for compile check."⟩])) := by
  have htargets := targets_of_holdsValid (fun e => holdsValid_of_mem_metadataFiles h)
    (args.allOf "--path")
  rw [checkCommand, bind_of_eq (read_checkArguments hargs),
    bind_of_eq (discover_apply site w), hflagless, bind_of_eq htargets, run_nil,
    World.logged_logged]

/-- On metadata of the schema the answer is what is said about metadata without the flag. So in a
catalogue whose metadata all keeps to the schema nothing is selected without being told to include
such metadata, whatever paths are given, and the command ends with status zero and has done nothing
but log that. -/
theorem compileCheck_selects_nothing :
    (∀ m flagless, checkSchema m = .ok () → wantsCompilation flagless m = .ok flagless) ∧
    ∀ site w, AllValid site w.tree →
      ∃ found, discover site w = (.ok found, w) ∧
        (∀ filters, targets found false filters site w =
          (.ok [], w.logged (found.map fun e => skipping e.1))) ∧
        ∀ words args, (CommandLine.read checkArguments words [] site w).1 = .ok args →
          args.has "--include-flagless" = false →
          checkCommand words site w = (.ok 0, w.logged (found.map (fun e => skipping e.1) ++
            [⟨.info, "No targets discovered for compile check."⟩])) := by
  refine ⟨fun m flagless h => wantsCompilation_of_checkSchema h flagless, fun site w hvalid => ?_⟩
  refine ⟨metadataFiles site w.tree, discover_apply site w, ?_, ?_⟩
  · exact targets_of_holdsValid fun e => holdsValid_of_mem_metadataFiles hvalid
  · intro words args hargs hflagless
    exact checkCommand_of_allValid hvalid hargs hflagless

def loneCatalogue : World where
  tree :=
    { files :=
        [ (["components", "data", "loader", "component.py"], .text "def load(): ...\n"),
          (["components", "data", "loader", "metadata.yaml"], .text
            ("name: loader\nstability: beta\ndependencies:\n  kubeflow:\n" ++
              "    - name: Pipelines\n      version: '>=2.5.0'\nlastVerified: 2025-11-18\n" ++
              "ci:\n  skip_dependency_probe: true\n"))]
      folders := [[], ["components"], ["components", "data"], ["components", "data", "loader"]] }

theorem compileCheck_selects_nothing_lone : AllValid rootSite loneCatalogue.tree ∧
      (∃ m, valueAt rootSite loneCatalogue.tree
          ⟨"/", ["components", "data", "loader", "metadata.yaml"]⟩ = .ok m ∧
        ∀ flagless, wantsCompilation flagless m = .ok flagless) ∧
      (checkCommand ["--path", "components", "--fail-fast"] rootSite loneCatalogue).1 = .ok 0 := by
  have hvalid : AllValid rootSite loneCatalogue.tree := by decide +kernel
  have hfile : HoldsValid rootSite loneCatalogue.tree
      ⟨"/", ["components", "data", "loader", "metadata.yaml"]⟩ :=
    hvalid _ mem_cons_self ["data", "loader", "metadata.yaml"] (by decide +kernel) rfl
  obtain ⟨m, hm, hschema⟩ := except_bind_eq_ok.mp hfile
  obtain ⟨hflag, hcatalogue⟩ := compileCheck_selects_nothing
  obtain ⟨found, _, _, hcommand⟩ := hcatalogue _ _ hvalid
  refine ⟨hvalid, ⟨m, hm, fun flagless => hflag m flagless hschema⟩, ?_⟩
  rw [hcommand _ ⟨[("--path", ["components"]), ("--fail-fast", [])]⟩ rfl (by decide)]

end Compile

end AssetCatalog
