import AssetCatalog.Proofs.CompileOutcome

/-!
# Filters of the compile check

What becomes of the selected metadata does not depend on the others, if these can be read.
-/

namespace AssetCatalog

open List

open Run (bind_apply bind_of_eq)

variable {ts : List Target} {e : Path × String}

namespace Metadata

variable {site : Site} {t u : Tree} {filters : List String} {flagless : Bool}

def Selects (site : Site) (t : Tree) (e : Path × String) (f : Path) : Bool :=
  if t.isFolder (site.home.join f).names then (e.1.parent.resolve site.home).isWithin f
  else e.1.resolve site.home = f || (moduleOf e.1 e.2).resolve site.home = f

def filterPaths (site : Site) (filters : List String) : List Path :=
  filters.map fun f => (Path.ofText f).resolve site.repository

/-- Whether filters select a file of metadata; without filters all are selected. -/
def Selected (site : Site) (t : Tree) (filters : List String) (e : Path × String) : Bool :=
  (filterPaths site filters).isEmpty || (filterPaths site filters).any (Selects site t e)

def metadataAt (site : Site) (t : Tree) (file : Path) : Except Fault Value := do
  let v := (← valueAt site t file).orElse (.map [])
  if v.isMap then pure v else throw (.invalid s!"Metadata at {file.text} must be a mapping.")

def targetAt (site : Site) (t : Tree) (flagless : Bool) (filters : List String) (e : Path × String) :
    Except Fault (Option Target) := do
  let metadata ← metadataAt site t e.1
  let wanted ← wantsCompilation flagless metadata
  pure (if wanted && Selected site t filters e && t.exists? (site.home.join (moduleOf e.1 e.2)).names then
    some { metadataPath := e.1, modulePath := moduleOf e.1 e.2, kind := e.2, metadata } else none)

lemma load_apply (file : Path) (w : World) :
    load file site w = (metadataAt site w.tree file, w) := by
  rw [load, bind_apply, loadYaml_apply, metadataAt]
  rcases valueAt site w.tree file with e | v
  · rfl
  · rw [except_ok_bind]
    dsimp only
    split <;> rfl

lemma anySelects_apply (e : Path × String) (fs : List Path) (w : World) :
    anySelects (e.1.parent.resolve site.home) (e.1.resolve site.home) ((moduleOf e.1 e.2).resolve site.home)
      fs site w = (.ok (fs.any (Selects site w.tree e)), w) := by
  induction fs with
  | nil => rfl
  | cons f fs ih =>
    have hf : filterSelects (e.1.parent.resolve site.home) (e.1.resolve site.home)
        ((moduleOf e.1 e.2).resolve site.home) f site w = (.ok (Selects site w.tree e f), w) := by
      rw [filterSelects, bind_apply, Run.isFolder_apply, Selects]
      dsimp only
      split <;> rfl
    rw [anySelects, bind_of_eq hf, any_cons]
    cases Selects site w.tree e f with
    | true => rfl
    | false => exact ih

lemma selected_apply (e : Path × String) (w : World) :
    selected (filterPaths site filters) e.1 (moduleOf e.1 e.2) site w =
      (.ok (Selected site w.tree filters e), w) := by
  rw [selected, Selected]
  cases (filterPaths site filters).isEmpty with
  | true => rfl
  | false => exact anySelects_apply e _ w

lemma complete_logs (e : Path × String) (metadata : Value) (w : World) :
    Run.Logs site w (complete e.1 e.2 metadata)
      (pure (if w.tree.exists? (site.home.join (moduleOf e.1 e.2)).names then
        some { metadataPath := e.1, modulePath := moduleOf e.1 e.2, kind := e.2, metadata } else none)) := by
  apply Run.Logs.after (Run.exists?_apply _ site w)
  split
  · exact .of_eq rfl
  · exact ⟨[_], rfl⟩

lemma targetOf_logs (site : Site) (flagless : Bool) (filters : List String) (e : Path × String)
    (w : World) : Run.Logs site w (targetOf flagless (filterPaths site filters) e.1 e.2)
      (targetAt site w.tree flagless filters e) := by
  refine Run.Logs.bind (.of_eq (load_apply e.1 w)) fun metadata es _ => .bind .ofExcept fun wanted fs _ => ?_
  cases wanted with
  | false => exact ⟨[skipping e.1], rfl⟩
  | true =>
    apply Run.Logs.after (selected_apply e _)
    dsimp only [World.logged_tree]
    cases Selected site w.tree filters e with
    | false => exact .of_eq rfl
    | true => simpa using complete_logs e metadata ((w.logged es).logged fs)

lemma mapM_targetOf_logs (site : Site) (flagless : Bool) (filters : List String)
    (found : List (Path × String)) (w : World) :
    Run.Logs site w (found.mapM fun e => targetOf flagless (filterPaths site filters) e.1 e.2)
      (found.mapM (targetAt site w.tree flagless filters)) := by
  induction found generalizing w with
  | nil => exact .of_eq rfl
  | cons e found ih =>
    rw [mapM_cons, mapM_cons]
    exact (targetOf_logs site flagless filters e w).bind fun target es _ =>
      (ih _).bind fun targets fs _ => .of_eq rfl

/-- The targets of a catalogue: those of the files of metadata that are found. -/
def discoverTargets (flagless : Bool) (filters : List String) : Run (List Target) := do
  targets (← discover) flagless filters

def targetsIn (site : Site) (t : Tree) (flagless : Bool) (filters : List String)
    (found : List (Path × String)) : Except Fault (List Target) :=
  (List.filterMap id) <$> found.mapM (targetAt site t flagless filters)

lemma targetsIn_eq_ok {found : List (Path × String)} :
    targetsIn site t flagless filters found = .ok ts ↔
      ∃ targets, found.mapM (targetAt site t flagless filters) = .ok targets ∧
        targets.filterMap id = ts := by
  rw [targetsIn]
  rcases found.mapM (targetAt site t flagless filters) with fault | targets
  · simp
  · simp

lemma discoverTargets_logs (site : Site) (flagless : Bool) (filters : List String) (w : World) :
    Run.Logs site w (discoverTargets flagless filters)
      (targetsIn site w.tree flagless filters (metadataFiles site w.tree)) := by
  apply Run.Logs.after (discover_apply site w)
  apply Run.Logs.after (Run.read_apply site w)
  rw [targetsIn, map_eq_pure_bind]
  exact (mapM_targetOf_logs site flagless filters _ w).bind fun targets es _ => .of_eq rfl

/-! ## Files that are not selected -/

def selectedFiles (site : Site) (t : Tree) (filters : List String) : List (Path × String) :=
  (metadataFiles site t).filter (Selected site t filters)

def IsReadable (site : Site) (t : Tree) (flagless : Bool) (file : Path) : Prop :=
  ∃ wanted, (metadataAt site t file >>= wantsCompilation flagless) = .ok wanted

/-- Every file of metadata that is not selected can be read. -/
def OthersReadable (site : Site) (t : Tree) (flagless : Bool) (filters : List String) : Prop :=
  ∀ e ∈ metadataFiles site t, Selected site t filters e = false → IsReadable site t flagless e.1

lemma isReadable_of_targetAt {target : Option Target}
    (h : targetAt site t flagless filters e = .ok target) : IsReadable site t flagless e.1 := by
  obtain ⟨metadata, hmetadata, h⟩ := except_bind_eq_ok.mp h
  obtain ⟨wanted, hwanted, -⟩ := except_bind_eq_ok.mp h
  exact ⟨wanted, except_bind_eq_ok.mpr ⟨metadata, hmetadata, hwanted⟩⟩

lemma targetAt_of_not_selected (h : Selected site t filters e = false)
    (hreadable : IsReadable site t flagless e.1) : targetAt site t flagless filters e = .ok none := by
  obtain ⟨wanted, hwanted⟩ := hreadable
  obtain ⟨metadata, hmetadata, hwanted⟩ := except_bind_eq_ok.mp hwanted
  rw [targetAt, hmetadata, except_ok_bind, hwanted, except_ok_bind, h]
  simp

lemma filterMap_mapM_filter {α β : Type} {f : α → Except Fault (Option β)} {p : α → Bool} {xs : List α}
    (h : ∀ x ∈ xs, p x = false → f x = .ok none) :
    List.filterMap id <$> xs.mapM f = List.filterMap id <$> (xs.filter p).mapM f := by
  have hcons (y : Option β) (ys : Except Fault (List (Option β))) :
      List.filterMap id <$> (ys >>= fun rest => pure (y :: rest)) =
        (y.toList ++ ·) <$> List.filterMap id <$> ys := by
    cases ys with
    | error e => rfl
    | ok rest => cases y <;> rfl
  induction xs with
  | nil => rfl
  | cons x xs ih =>
    obtain ⟨hx, hxs⟩ := forall_mem_cons.mp h
    rw [mapM_cons, filter_cons]
    cases hp : p x with
    | true =>
      rw [if_pos rfl, mapM_cons]
      rcases f x with e | y
      · rfl
      · rw [except_ok_bind, except_ok_bind, hcons, hcons, ih hxs]
    | false =>
      rw [if_neg Bool.false_ne_true, hx hp, except_ok_bind, hcons, ih hxs]
      exact id_map _

lemma targetsIn_metadataFiles (h : OthersReadable site t flagless filters) :
    targetsIn site t flagless filters (metadataFiles site t) =
      targetsIn site t flagless filters (selectedFiles site t filters) := by
  apply filterMap_mapM_filter
  intro e he hnot
  exact targetAt_of_not_selected hnot (h e he hnot)

lemma othersReadable_of_targetsIn
    (h : targetsIn site t flagless filters (metadataFiles site t) = .ok ts) :
    OthersReadable site t flagless filters := by
  intro e he _
  obtain ⟨targets, htargets, -⟩ := targetsIn_eq_ok.mp h
  obtain ⟨target, htarget⟩ := exists_mapM_eq_ok.mp ⟨targets, htargets⟩ e he
  exact isReadable_of_targetAt htarget

/-! ## Two catalogues -/

/-- Two trees, the second with other modules, that agree on what the filters select: on the selected
files of metadata, on what stands there and in their modules, and on what loading the modules gives. -/
structure Agree (site : Site) (modules : List (String × Loaded)) (filters : List String) (t u : Tree) :
    Prop where
  files : selectedFiles site u filters = selectedFiles site t filters
  metadata : ∀ e ∈ selectedFiles site t filters,
    u.find (site.home.join e.1).names = t.find (site.home.join e.1).names
  module : ∀ e ∈ selectedFiles site t filters,
    u.find (site.home.join (moduleOf e.1 e.2)).names = t.find (site.home.join (moduleOf e.1 e.2)).names
  loads : ∀ e ∈ selectedFiles site t filters,
    Run.imported { site with modules } (Run.moduleKey site (moduleOf e.1 e.2)) =
      Run.imported site (Run.moduleKey site (moduleOf e.1 e.2))

variable {modules : List (String × Loaded)}

lemma Agree.targetAt (h : Agree site modules filters t u)
    (he : e ∈ selectedFiles site t filters) :
    targetAt site u flagless filters e = targetAt site t flagless filters e := by
  have hselected : Selected site u filters e = Selected site t filters e := by
    have he' := he
    rw [← h.files] at he'
    rw [(mem_filter.mp he).2, (mem_filter.mp he').2]
  have hvalue : metadataAt site u e.1 = metadataAt site t e.1 := by
    rw [metadataAt, metadataAt, valueAt, valueAt, Tree.read, Tree.read, h.metadata e he]
  have hmodule : u.exists? (site.home.join (moduleOf e.1 e.2)).names =
      t.exists? (site.home.join (moduleOf e.1 e.2)).names := by
    rw [Tree.exists?, Tree.exists?, Tree.isFile, Tree.isFile, Tree.isFolder, Tree.isFolder, h.module e he]
  rw [Metadata.targetAt, Metadata.targetAt, hvalue, hselected, hmodule]

lemma Agree.targetsIn (h : Agree site modules filters t u) :
    targetsIn site u flagless filters (selectedFiles site u filters) =
      targetsIn site t flagless filters (selectedFiles site t filters) := by
  rw [Metadata.targetsIn, Metadata.targetsIn, h.files, mapM_congr fun e he => h.targetAt he]

lemma exists_selected_of_mem_targets
    (h : targetsIn site t flagless filters (selectedFiles site t filters) = .ok ts) {target : Target}
    (htarget : target ∈ ts) : ∃ e ∈ selectedFiles site t filters, target.modulePath = moduleOf e.1 e.2 := by
  obtain ⟨targets, htargets, rfl⟩ := targetsIn_eq_ok.mp h
  have hsome : some target ∈ targets := by simpa using htarget
  obtain ⟨e, he, hat⟩ := exists_of_mem_mapM htargets hsome
  refine ⟨e, he, ?_⟩
  obtain ⟨metadata, -, hat⟩ := except_bind_eq_ok.mp hat
  obtain ⟨wanted, -, hat⟩ := except_bind_eq_ok.mp hat
  split at hat
  · cases hat
    rfl
  · cases hat

end Metadata

namespace Compile

open Metadata

def validation (failFast flagless : Bool) (filters : List String) : Run Int := do
  run failFast (← discoverTargets flagless filters)

lemma checkCommand_of_read {site : Site} {w : World} {words : List String} {args : Arguments}
    (h : (CommandLine.read checkArguments words [] site w).1 = .ok args) :
    checkCommand words site w =
      validation (args.has "--fail-fast") (args.has "--include-flagless") (args.allOf "--path") site w := by
  rw [checkCommand, bind_of_eq (read_checkArguments h)]
  simp only [validation, discoverTargets, bind_assoc]

variable {site : Site} {modules : List (String × Loaded)} {filters : List String} {t u : Tree}
  {flagless : Bool}

lemma alike_of_agree (h : Agree site modules filters t u)
    (hts : targetsIn site t flagless filters (selectedFiles site t filters) = .ok ts) :
    Alike site (ts.map Target.modulePath) { site with modules } := by
  refine ⟨rfl, rfl, ?_⟩
  intro p hp
  obtain ⟨target, htarget, rfl⟩ := mem_map.mp hp
  obtain ⟨e, he, hmodule⟩ := exists_selected_of_mem_targets hts htarget
  rw [hmodule]
  exact h.loads e he

lemma run_fst_eq (failFast : Bool) {other : Site}
    (h : Alike site (ts.map Target.modulePath) other) (w v : World) :
    (run failFast ts other w).1 = (run failFast ts site v).1 := by
  have hmodules : ∀ t ∈ ts, t.modulePath ∈ ts.map Target.modulePath := fun t ht =>
    mem_map_of_mem ht
  exact (run_endsAlike failFast hmodules).fst_eq h (.refl site _) w v

lemma discoverTargets_fst (site : Site) (flagless : Bool) (filters : List String) (w : World) :
    (discoverTargets flagless filters site w).1 =
      targetsIn site w.tree flagless filters (metadataFiles site w.tree) := by
  obtain ⟨es, hes⟩ := discoverTargets_logs site flagless filters w
  rw [hes]

lemma validation_fst (site : Site) (failFast flagless : Bool) (filters : List String) (w : World) :
    (validation failFast flagless filters site w).1 =
      (targetsIn site w.tree flagless filters (metadataFiles site w.tree) >>= fun ts =>
        (run failFast ts site default).1) := by
  obtain ⟨es, hes⟩ := discoverTargets_logs site flagless filters w
  rw [validation, bind_apply, hes]
  rcases targetsIn site w.tree flagless filters (metadataFiles site w.tree) with fault | ts
  · rfl
  · exact run_fst_eq failFast (.refl site _) _ _

/-- Two catalogues that agree on what the filters select are checked alike if everything else can be
read in both; where something else cannot be read, the check ends with a fault. The check is what the
command does. -/
theorem filtered_check_eq_of_othersReadable {w v : World} (h : Agree site modules filters w.tree v.tree)
    (failFast flagless : Bool) :
    (OthersReadable site w.tree flagless filters → OthersReadable site v.tree flagless filters →
      (discoverTargets flagless filters { site with modules } v).1 =
          (discoverTargets flagless filters site w).1 ∧
        (validation failFast flagless filters { site with modules } v).1 =
          (validation failFast flagless filters site w).1) ∧
    (¬ OthersReadable site v.tree flagless filters →
      ∃ fault, (discoverTargets flagless filters { site with modules } v).1 = .error fault ∧
        (validation failFast flagless filters { site with modules } v).1 = .error fault) ∧
    ∀ words args, (CommandLine.read checkArguments words [] site w).1 = .ok args →
      checkCommand words site w =
        validation (args.has "--fail-fast") (args.has "--include-flagless") (args.allOf "--path") site w := by
  rw [← and_assoc]
  refine ⟨?_, fun words args => checkCommand_of_read⟩
  simp only [discoverTargets_fst, validation_fst]
  -- The targets do not depend on the modules.
  change (_ → _ → targetsIn site v.tree _ _ (metadataFiles site v.tree) = _ ∧
    (targetsIn site v.tree _ _ (metadataFiles site v.tree) >>= _) = _) ∧
    (_ → ∃ _, targetsIn site v.tree _ _ (metadataFiles site v.tree) = _ ∧
      (targetsIn site v.tree _ _ (metadataFiles site v.tree) >>= _) = _)
  constructor
  · intro hw hv
    rw [targetsIn_metadataFiles hw, targetsIn_metadataFiles hv, h.targetsIn]
    refine ⟨rfl, ?_⟩
    rcases hts : targetsIn site w.tree flagless filters (selectedFiles site w.tree filters) with fault | ts
    · rfl
    · exact run_fst_eq failFast (alike_of_agree h hts) _ _
  · intro hv
    rcases hts : targetsIn site v.tree flagless filters (metadataFiles site v.tree) with fault | ts
    · exact ⟨fault, rfl, rfl⟩
    · exact absurd (othersReadable_of_targetsIn hts) hv

example : wantsCompilation false (.map []) = .ok false := by decide +kernel

def neighbours (other : String) : World where
  tree :=
    { files :=
        [ (["components", "data", "load", "component.py"], .text ""),
          (["components", "data", "load", "metadata.yaml"], .text "ci:\n  compile_check: true\n"),
          (["components", "data", "parse", "component.py"], .text ""),
          (["components", "data", "parse", "metadata.yaml"], .text other)]
      folders := [[], ["components"], ["components", "data"], ["components", "data", "load"],
        ["components", "data", "parse"]] }

def chosenFile : Path × String := (⟨"/", ["components", "data", "load", "metadata.yaml"]⟩, "component")

def otherFile : Path × String := (⟨"/", ["components", "data", "parse", "metadata.yaml"]⟩, "component")

lemma metadataFiles_neighbours (other : String) :
    metadataFiles (compilingSite "load") (neighbours other).tree = [chosenFile, otherFile] := by
  have hsorted : Path.sortByText [chosenFile.1, otherFile.1] = [chosenFile.1, otherFile.1] :=
    mergeSort_of_pairwise (by decide +kernel)
  change (Path.sortByText [chosenFile.1, otherFile.1]).map _ ++ (Path.sortByText []).map _ = _
  rw [hsorted, Path.sortByText, mergeSort_nil]
  rfl

lemma selectedFiles_neighbours (other : String) :
    selectedFiles (compilingSite "load") (neighbours other).tree ["components/data/load"] =
      [chosenFile] := by
  rw [selectedFiles, metadataFiles_neighbours]
  rfl

lemma agree_neighbours (first second : String) :
    Agree (compilingSite "load") (compilingSite "load").modules ["components/data/load"]
      (neighbours first).tree (neighbours second).tree := by
  refine ⟨(selectedFiles_neighbours second).trans (selectedFiles_neighbours first).symm, ?_, ?_,
    fun _ _ => rfl⟩ <;>
  · intro e he
    rw [selectedFiles_neighbours, mem_singleton] at he
    rw [he]
    rfl

lemma othersReadable_neighbours (other : String) (wanted : Bool)
    (h : (metadataAt (compilingSite "load") (neighbours other).tree otherFile.1 >>= wantsCompilation false) =
      .ok wanted) :
    OthersReadable (compilingSite "load") (neighbours other).tree false ["components/data/load"] := by
  intro e he hnot
  rw [metadataFiles_neighbours, mem_cons, mem_singleton] at he
  rcases he with rfl | rfl
  · have hchosen : chosenFile ∈ selectedFiles (compilingSite "load") (neighbours other).tree
        ["components/data/load"] := by
      rw [selectedFiles_neighbours]
      exact mem_singleton_self _
    cases hnot
  · exact ⟨wanted, h⟩

theorem filtered_check_neighbours :
    OthersReadable (compilingSite "load") (neighbours "name: parse\n").tree false
        ["components/data/load"] ∧
      OthersReadable (compilingSite "load") (neighbours "ci:\n  compile_check: true\n").tree false
        ["components/data/load"] ∧
      (validation true false ["components/data/load"] (compilingSite "load")
        (neighbours "ci:\n  compile_check: true\n")).1 = .ok 0 ∧
      (validation true false [] (compilingSite "load")
        (neighbours "ci:\n  compile_check: true\n")).1 = .ok 1 := by
  -- one evaluation, as the facts read the same metadata
  have hfacts : (metadataAt (compilingSite "load") (neighbours "name: parse\n").tree otherFile.1 >>=
        wantsCompilation false) = .ok false ∧
      (metadataAt (compilingSite "load") (neighbours "ci:\n  compile_check: true\n").tree otherFile.1 >>=
        wantsCompilation false) = .ok true ∧
      (validation true false ["components/data/load"] (compilingSite "load")
        (neighbours "name: parse\n")).1 = .ok 0 ∧
      (validation true false [] (compilingSite "load")
        (neighbours "ci:\n  compile_check: true\n")).1 = .ok 1 := by
    rw [validation_fst, validation_fst, metadataFiles_neighbours, metadataFiles_neighbours]
    decide +kernel
  obtain ⟨hfirst, hsecond, hzero, hone⟩ := hfacts
  have hfirst := othersReadable_neighbours "name: parse\n" false hfirst
  have hsecond := othersReadable_neighbours "ci:\n  compile_check: true\n" true hsecond
  have hsame := (filtered_check_eq_of_othersReadable (agree_neighbours _ _) true false).1 hfirst hsecond
  exact ⟨hfirst, hsecond, hsame.2.trans hzero, hone⟩

/-- Metadata that is no YAML ends the check of a filter that does not select it. -/
theorem filtered_check_unreadable_neighbour :
    Agree (compilingSite "load") (compilingSite "load").modules ["components/data/load"]
        (neighbours "name: parse\n").tree (neighbours "name: [parse\n").tree ∧
      (validation true false ["components/data/load"] (compilingSite "load")
        (neighbours "name: parse\n")).1 = .ok 0 ∧
      (discoverTargets false ["components/data/load"] (compilingSite "load")
        (neighbours "name: [parse\n")).1.toOption.isNone ∧
      (validation true false ["components/data/load"] (compilingSite "load")
        (neighbours "name: [parse\n")).1 = .error .yaml := by
  refine ⟨agree_neighbours _ _, ?_⟩
  rw [validation_fst, validation_fst, discoverTargets_fst, metadataFiles_neighbours, metadataFiles_neighbours]
  decide +kernel

end Compile

end AssetCatalog
