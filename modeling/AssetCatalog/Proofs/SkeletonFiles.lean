import AssetCatalog.Proofs.CommandLine
import AssetCatalog.Proofs.SkeletonGrowth

/-!
# Files that are there before an asset is made

None of them changes, but for the test files of an asset that is asked for its tests only.
-/

namespace AssetCatalog.Skeleton

open List Place Request Tree

open AssetCatalog.Path (IsStep)
open Run (Ensures KeepsBut Moves bind_apply bind_eq_ok printAll_apply rootSite)

variable {t : Tree}

section Writing

variable {site : Site} {writes : Location → Content → Prop} {p : Place}

lemma writeNew_keeps (file : Path) (text : String) : KeepsBut site writes (writeNew file text) := by
  intro w
  refine ⟨?_, fun _ _ => trivial⟩
  rw [writeNew, bind_apply, Run.exists?_apply]
  cases hfile : w.tree.exists? (site.home.join file).names with
  | true => exact Tree.KeepsBut.refl w.tree
  | false =>
    apply KeepsBut.writeText
    simp [hfile]

lemma writeAll_keeps {folder : Path} {files : List NamedText}
    (h : ∀ f ∈ files, writes (site.home.join (folder.below f.1)).names (.text f.2)) :
    KeepsBut site writes (writeAll folder files) :=
  Moves.forM fun f hf _ => ⟨KeepsBut.writeText fun _ => h f hf, fun _ _ => trivial⟩

def Place.Inside (site : Site) (p : Place) (q : Location) (_ : Content) : Prop :=
  ".." ∉ q ∧ ∃ n ms, q = site.home.names ++ p.names ++ n :: ms

lemma respects_keeps (hhome : ".." ∉ site.home.names) (p : Place) :
    p.Respects site fun v w => v.tree.KeepsBut (p.Inside site) w.tree where
  folders _ _ _ := KeepsBut.makeFolders _
  group _ _ _ text _ _ _ := writeNew_keeps _ text
  own n ms text hsteps w := by
    refine ⟨KeepsBut.writeText fun _ => ?_, fun _ _ => trivial⟩
    rw [home_join, ← append_assoc]
    refine ⟨?_, n, ms, rfl⟩
    rw [append_assoc, mem_append, not_or]
    exact ⟨hhome, dots_notMem hsteps⟩

lemma printAll_keeps (lines : List String) : KeepsBut site writes (Run.printAll lines) :=
  KeepsBut.of_tree_eq fun w => by rw [printAll_apply, World.printed_tree]

lemma print_keeps (line : String) : KeepsBut site writes (Run.print line) :=
  KeepsBut.of_tree_eq fun w => by rw [Run.print_apply, World.printed_tree]

lemma refuse_keeps (lines : List String) : KeepsBut site writes (refuse lines) :=
  Moves.bind (printAll_keeps lines) fun _ => .throw trivial

lemma makeAsset_keeps (hhome : ".." ∉ site.home.names) (hsteps : ∀ n ∈ p.names, IsStep n)
    (tests shared : Bool) : KeepsBut site (p.Inside site) (makeAsset p tests shared) := by
  refine .bind (Moves.exists? _) fun there => .when (refuse_keeps _) fun _ => ?_
  apply Moves.bind (create_moves (respects_keeps hhome p) hsteps tests shared)
  intro _
  exact .bind (print_keeps _) fun _ => printAll_keeps _

lemma read_makeAsset (hhome : ".." ∉ site.home.names) (hsteps : ∀ n ∈ p.names, IsStep n)
    {tests shared : Bool} {w : World} {q : Location} {c : Content} (hq : w.tree.read q = .ok c) :
    (makeAsset p tests shared site w).2.tree.read q = .ok c := by
  have hplace : (site.home.join p.folder).names = site.home.names ++ p.names := by
    rw [folder_eq hsteps, home_join]
  cases hfolder : w.tree.exists? (site.home.join p.folder).names with
  | true =>
    rw [makeAsset, bind_apply, Run.exists?_apply, hfolder]
    simpa [refuse, printAll_apply] using hq
  | false =>
    have hkeeps := (makeAsset_keeps hhome hsteps tests shared w).1
    obtain ⟨l, hl, hfile⟩ := read_eq_ok_iff.mp hq
    rcases hkeeps.files l c hfile with hkept | ⟨path, _, ⟨hdots, n, ms, rfl⟩, hpath, _⟩
    · exact read_eq_ok_iff.mpr ⟨l, follow_of_subset hkeeps.folders hl, hkept⟩
    · obtain rfl := eq_append_of_follow hdots hpath
      have hthere : w.tree.exists? (site.home.names ++ p.names) :=
        exists?_of_follow_prefix hl (prefix_append _ _) (by simp)
          fun h => hdots (mem_append_left _ h)
      rw [hplace, hthere] at hfolder
      cases hfolder

def Place.testPath (site : Site) (p : Place) (name : String) : Location :=
  (site.home.join ((p.folder.below "tests").below name)).names

def Place.HasTest (site : Site) (p : Place) (q : Location) (c : Content) : Prop :=
  ∃ f ∈ testFiles p.draft, q = p.testPath site f.1 ∧ c = .text f.2

lemma makeTests_keeps (p : Place) : KeepsBut site (p.HasTest site) (makeTests p) := by
  have hwrite : KeepsBut site (p.HasTest site)
      (writeAll (p.folder.below "tests") (testFiles p.draft)) :=
    writeAll_keeps fun f hf => ⟨f, hf, rfl, rfl⟩
  have hcreate : KeepsBut site (p.HasTest site) (createTests p) := by
    refine .bind (Moves.exists? _) fun _ => .when (.throw trivial) fun _ => ?_
    refine .bind (Moves.exists? _) fun _ => .when (.throw trivial) fun _ => ?_
    exact Moves.bind (KeepsBut.makeFolders _) fun _ => Moves.bind hwrite fun _ => Moves.pure _
  exact .bind hcreate fun _ => .bind (print_keeps _) fun _ => printAll_keeps _

lemma read_of_writeAll {ns : List String} {files : List NamedText} {w w' : World}
    (hhome : ".." ∉ site.home.names) (hns : ∀ n ∈ ns, IsStep n) (hfiles : ∀ f ∈ files, IsStep f.1)
    (hnodup : (files.map (·.1)).Nodup) (h : writeAll ⟨"", ns⟩ files site w = (.ok (), w')) :
    ∀ f ∈ files, w'.tree.read (site.home.names ++ (ns ++ [f.1])) = .ok (.text f.2) := by
  induction files generalizing w with
  | nil => simp
  | cons f files ih =>
    obtain ⟨hf, hrest⟩ := forall_mem_cons.mp hfiles
    obtain ⟨hfresh, hnodup⟩ := nodup_cons.mp hnodup
    obtain ⟨_, v, hfirst, hnext⟩ := bind_eq_ok h
    have hwritten := Run.writeText_eq_ok hfirst
    rw [below_eq ns hf, home_join] at hwritten
    have hdots {m : String} (hm : IsStep m) : ".." ∉ site.home.names ++ (ns ++ [m]) := by
      rw [mem_append, not_or]
      exact ⟨hhome, dots_notMem (steps_append hns (by simpa using hm))⟩
    have hkeeps : v.tree.KeepsBut (fun q c => ∃ g ∈ files, q = site.home.names ++ (ns ++ [g.1]) ∧
        c = .text g.2) (writeAll ⟨"", ns⟩ files site v).2.tree := by
      refine (writeAll_keeps (fun g hg => ⟨g, hg, ?_, rfl⟩) v).1
      rw [below_eq ns (hrest g hg), home_join]
    rw [show writeAll ⟨"", ns⟩ files site v = (.ok (), w') from hnext] at hkeeps
    rintro g (_ | ⟨_, hg⟩)
    · rcases hkeeps.read (read_of_write hwritten) with hkept | ⟨q, _, ⟨g, hg, rfl, rfl⟩, hsame, hd⟩
      · exact hkept
      · -- Two of the files would be at one place, and so have one name.
        obtain ⟨l, hl, _⟩ := read_eq_ok_iff.mp hd
        have hplace := eq_append_of_follow (hdots hf) hl
        rw [eq_append_of_follow (hdots (hrest g hg)) (hsame.trans hl)] at hplace
        have hname : g.1 = f.1 := by simpa using hplace
        exact absurd (mem_map.mpr ⟨g, hg, hname⟩) hfresh
    · exact ih hrest hnodup hnext g hg

end Writing

/-! ## The command -/

section Command

variable {site : Site} {words : List String} {w v : World} {r : Request}

lemma read_request : (Request.read words site w).2 = w ∧ ∀ r, (Request.read words site w).1 = .ok r →
      r.place.draft.type ∈ ["", "component", "pipeline"] := by
  have hkeeps : ∀ a ∈ skeletonArguments, CommandLine.Keeps (· = w) a := by
    intro a ha word
    simp only [skeletonArguments, mem_cons, not_mem_nil, or_false] at ha
    rcases ha with rfl | rfl | rfl | rfl | rfl | rfl | rfl <;> exact .pure trivial
  obtain ⟨hworld, huses⟩ := CommandLine.read_ensures words hkeeps (forall_mem_nil _) site w rfl
  rw [Request.read, bind_apply]
  rcases hread : CommandLine.read skeletonArguments words [] site w with ⟨e | args, v⟩
  · rw [hread] at hworld
    exact ⟨hworld, fun r hr => by cases hr⟩
  · rw [hread] at hworld huses
    refine ⟨hworld, fun r hr => ?_⟩
    cases hr
    rcases hword : args.last? "--type" with _ | word
    · simp [Arguments.textOf, hword]
    · obtain ⟨u, hu, hname, hmem⟩ := CommandLine.mem_of_last? hword
      obtain ⟨a, ha, haname, htakes⟩ := huses args rfl u hu
      have htype : a.choices = ["component", "pipeline"] := by
        rw [hname] at haname
        simp only [skeletonArguments, mem_cons, cons_append, nil_append,
          not_mem_nil, or_false] at ha
        rcases ha with rfl | rfl | rfl | rfl | rfl | rfl | rfl | rfl <;>
          first | rfl | exact absurd haname (by decide)
      have hchosen := htakes word hmem
      rw [CommandLine.Takes, htype] at hchosen
      rw [Arguments.textOf, hword]
      exact mem_cons_of_mem _ (hchosen.resolve_left (cons_ne_nil _ _))

lemma refuse_ensures (lines : List String) {P : Unit → Prop} :
    Ensures (fun v => v.tree = t) (refuse lines) P := by
  intro site v hv
  rw [refuse, bind_apply, printAll_apply]
  exact ⟨hv, fun _ h => by cases h⟩

lemma checkNames_ensures (p : Place) : Ensures (fun v => v.tree = t) (checkNames p)
    fun _ => IsStep (typeFolder p.draft.type) → ∀ n ∈ p.names, IsStep n := by
  unfold checkNames
  dsimp only
  split
  · next hrules =>
    simp only [except_seq_eq_ok] at hrules
    obtain ⟨hname, hcategory, hgroup⟩ := hrules
    refine .pure fun hfolder => isStep_names hfolder hname hcategory fun s hs => ?_
    rwa [hs] at hgroup
  · exact refuse_ensures _

lemma checkCategoryExists_ensures (p : Place) :
    Ensures (fun v => v.tree = t) (checkCategoryExists p) fun _ => True := by
  have hexisting : Ensures (fun v => v.tree = t) (existingCategories p.draft.type) fun _ => True := by
    refine .bind (Ensures.exists? _) fun _ _ => .ite ?_ (.pure trivial)
    refine .bind (.folderItems _) fun items _ => ?_
    refine .bind (.filterM (P := fun _ => True) fun a _ => ?_) fun _ _ =>
      Ensures.pure trivial
    exact (Ensures.isFolder a).mono fun _ _ _ => trivial
  exact .bind hexisting fun _ _ => .ite (refuse_ensures _) (.pure trivial)

lemma check_ensures (r : Request) : Ensures (fun v => v.tree = t) r.check
    fun _ => IsStep (typeFolder r.place.draft.type) → ∀ n ∈ r.place.names, IsStep n := by
  have hlast (hnames : IsStep (typeFolder r.place.draft.type) → ∀ n ∈ r.place.names, IsStep n) :
      Ensures (fun v => v.tree = t) (if (r.noTests && r.testsOnly) = true then
        refuse ["Error: --no-tests and --tests-only cannot be used together"] else pure ())
        fun _ => IsStep (typeFolder r.place.draft.type) → ∀ n ∈ r.place.names, IsStep n :=
    Ensures.ite (refuse_ensures _) (.pure hnames)
  refine .bind (checkNames_ensures r.place) fun _ hnames => ?_
  apply Ensures.ite
  · exact .bind (refuse_ensures _) fun _ (h : False) => h.elim
  · exact .ite
      (.bind (checkCategoryExists_ensures r.place) fun _ _ => hlast hnames) (hlast hnames)

/-- A command leaves the files as they are, or carries out a request that was read from its words and
passed the checks. -/
lemma command_cases (words : List String) (site : Site) (w : World) :
    ((command words site w).2.tree = w.tree ∧ (command words site w).1 ≠ .ok ()) ∨
      ∃ r v, Request.read words site w = (.ok r, w) ∧ v.tree = w.tree ∧
        (∀ n ∈ r.place.names, IsStep n) ∧
        (command words site w).2.tree = (r.carryOut site v).2.tree ∧
        ((command words site w).1 = .ok () → (r.carryOut site v).1 = .ok ()) := by
  obtain ⟨hworld, htype⟩ := @read_request site words w
  rw [command, bind_apply]
  rcases hread : Request.read words site w with ⟨e | r, v⟩
  · rw [hread] at hworld
    exact .inl ⟨congrArg World.tree hworld, fun h => by cases h⟩
  · rw [hread] at hworld htype
    obtain rfl : v = w := hworld
    obtain ⟨htree, hnames⟩ := check_ensures r site v rfl
    dsimp only
    rw [bind_apply]
    rcases hcheck : r.check site v with ⟨e | _, u⟩
    · rw [hcheck] at htree
      exact .inl ⟨htree, fun h => by cases h⟩
    · rw [hcheck] at htree hnames
      have hfolder : IsStep (typeFolder r.place.draft.type) := by
        have hmem := htype r rfl
        simp only [mem_cons, not_mem_nil, or_false] at hmem
        rcases hmem with h | h | h <;> rw [h] <;> decide
      refine .inr ⟨r, u, rfl, htree, hnames () rfl hfolder, ?_⟩
      dsimp only
      rw [bind_apply, Run.attempt_apply]
      rcases r.carryOut site u with ⟨e | _, u'⟩
      · cases e <;> simp [refuse, printAll_apply]
      · exact ⟨rfl, fun _ => rfl⟩

lemma isStep_testFiles {d : Draft} (h : d.type ∈ ["", "component", "pipeline"]) :
    (∀ f ∈ testFiles d, IsStep f.1) ∧ ((testFiles d).map (·.1)).Nodup := by
  simp only [mem_cons, not_mem_nil, or_false] at h
  simp only [testFiles, forall_mem_cons, map_cons]
  rcases h with h | h | h <;> rw [h] <;> decide

lemma read_makeTests {p : Place} (hhome : ".." ∉ site.home.names) (hsteps : ∀ n ∈ p.names, IsStep n)
    (htype : p.draft.type ∈ ["", "component", "pipeline"]) {w : World}
    (h : (makeTests p site w).1 = .ok ()) :
    ∀ f ∈ testFiles p.draft,
      (makeTests p site w).2.tree.read (p.testPath site f.1) = .ok (.text f.2) := by
  obtain ⟨hfiles, hnodup⟩ := isStep_testFiles htype
  obtain ⟨folder, v, hcreate, hprint⟩ :=
    bind_eq_ok (show makeTests p site w = (.ok (), (makeTests p site w).2) from Prod.ext h rfl)
  have htree : (makeTests p site w).2.tree = v.tree := by
    rw [bind_apply, Run.print_apply] at hprint
    simp only [printAll_apply, World.printed_printed] at hprint
    rw [← congrArg Prod.snd hprint, World.printed_tree]
  have hwrite : ∃ u, writeAll (p.folder.below "tests") (testFiles p.draft) site u = (.ok (), v) := by
    obtain ⟨there, _, hthere, hcreate⟩ := bind_eq_ok hcreate
    cases there with
    | false => cases hcreate
    | true =>
      obtain ⟨module, _, hmodule, hcreate⟩ := bind_eq_ok hcreate
      cases module with
      | false => cases hcreate
      | true =>
        obtain ⟨_, u, _, hcreate⟩ := bind_eq_ok hcreate
        obtain ⟨_, _, hwrite, hcreate⟩ := bind_eq_ok hcreate
        cases hcreate
        exact ⟨u, hwrite⟩
  obtain ⟨u, hwrite⟩ := hwrite
  rw [Place.folder_eq hsteps, below_eq _ (by decide : IsStep "tests")] at hwrite
  intro f hf
  rw [htree, Place.testPath, Place.folder_eq hsteps, below_eq _ (by decide : IsStep "tests"),
    below_eq _ (hfiles f hf), home_join]
  exact read_of_writeAll hhome (steps_append hsteps (by decide)) hfiles hnodup hwrite f hf

/-- Whatever the words are, a file that is there keeps what it holds, unless an asset is asked for its
tests only, and the file is one of its test files: then it holds the text of a new one. And if such a
command ends without a fault, all test files hold the texts of new ones. -/
theorem command_keeps_all_but_tests (hhome : ".." ∉ site.home.names) (words : List String) (w : World) :
    (∀ q c, w.tree.read q = .ok c → (command words site w).2.tree.read q = .ok c ∨
      ∃ r, (Request.read words site w).1 = .ok r ∧ r.testsOnly = true ∧ ∃ f ∈ testFiles r.place.draft,
        (command words site w).2.tree.follow [] (r.place.testPath site f.1) =
          (command words site w).2.tree.follow [] q ∧
        (command words site w).2.tree.read q = .ok (.text f.2)) ∧
    ((command words site w).1 = .ok () → ∀ r, (Request.read words site w).1 = .ok r →
      r.testsOnly = true → ∀ f ∈ testFiles r.place.draft,
        (command words site w).2.tree.read (r.place.testPath site f.1) = .ok (.text f.2)) := by
  rcases command_cases words site w with ⟨htree, hfails⟩ | ⟨r, v, hread, hv, hsteps, htree, hends⟩
  · rw [htree]
    exact ⟨fun q c hq => .inl hq, fun h => absurd h hfails⟩
  · rw [htree, hread]
    constructor
    · intro q c hq
      rw [← hv] at hq
      cases honly : r.testsOnly with
      | false =>
        rw [Request.carryOut, honly]
        exact .inl (read_makeAsset hhome hsteps hq)
      | true =>
        rw [Request.carryOut, honly, if_pos rfl]
        refine ((makeTests_keeps r.place v).1.read hq).imp_right ?_
        rintro ⟨_, _, ⟨f, hf, rfl, rfl⟩, hsame, hd⟩
        exact ⟨r, rfl, honly, f, hf, hsame, hd⟩
    · rintro hok _ ⟨rfl⟩ honly
      have hcarried := hends hok
      rw [Request.carryOut, honly, if_pos rfl] at hcarried ⊢
      exact read_makeTests hhome hsteps ((@read_request site words w).2 r (by rw [hread])) hcarried

end Command

/-! ### A component with a test file of its own -/

def testedTree : Tree where
  files := [(["components", "data", "loader", "component.py"], .text ""),
    (["components", "data", "loader", "tests", "test_component_unit.py"], .text "# mine\n")]
  folders := [[], ["components"], ["components", "data"], ["components", "data", "loader"],
    ["components", "data", "loader", "tests"]]

def wordsFor (name : String) (more : List String) : List String :=
  ["--type=component", "--category=data", "--name=" ++ name] ++ more

/-- A component is made beside another one, whose files stay. -/
theorem command_keeps_neighbour : ".." ∉ Run.rootSite.home.names ∧ ∀ q c, testedTree.read q = .ok c →
    (command (wordsFor "parser" []) rootSite { tree := testedTree }).2.tree.read q = .ok c := by
  have hdots : ".." ∉ Run.rootSite.home.names := by decide
  refine ⟨hdots, fun q c hq => ?_⟩
  have hkept :=
    (command_keeps_all_but_tests hdots (wordsFor "parser" []) { tree := testedTree }).1 q c hq
  refine hkept.resolve_right ?_
  rintro ⟨r, hread, honly, _⟩
  have hread' : (Request.read (wordsFor "parser" []) rootSite { tree := testedTree }).1 =
      .ok { place := { draft := { type := "component", category := "data", name := "parser" } } } := rfl
  cases hread'.symm.trans hread
  cases honly

theorem command_loses_tests :
    testedTree.read ["components", "data", "loader", "tests", "test_component_unit.py"] =
      .ok (.text "# mine\n") ∧
    (command (wordsFor "loader" ["--tests-only"]) rootSite { tree := testedTree }).1 = .ok () ∧
    (command (wordsFor "loader" ["--tests-only"]) rootSite { tree := testedTree }).2.tree.read
      ["components", "data", "loader", "tests", "test_component_unit.py"] ≠ .ok (.text "# mine\n") := by
  decide +kernel

end AssetCatalog.Skeleton
