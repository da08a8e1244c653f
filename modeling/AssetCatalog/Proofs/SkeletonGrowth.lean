import AssetCatalog.Skeleton.Create
import AssetCatalog.Proofs.SkeletonNames
import AssetCatalog.Proofs.TreeGrowth

/-!
# What making an asset adds

The folders down to an asset, what it holds, and what its subcategory needs.
-/

namespace AssetCatalog.Skeleton

open List Place

open Run (Moves bind_apply bind_eq_ok)

open AssetCatalog.Path (IsStep)

variable {w w' : World}

/-! ## Where an asset is made -/

namespace Place

def names (p : Place) : List String :=
  [typeFolder p.draft.type, p.draft.category] ++ p.group?.toList ++ [p.draft.name]

@[mk_iff] structure IsAccepted (p : Place) : Prop where
  name : checkName p.draft.name = .ok ()
  category : checkCategory p.draft.category = .ok ()
  subcategory : ∀ s ∈ p.subcategory, checkSubcategory s = .ok ()

instance (p : Place) : Decidable p.IsAccepted := decidable_of_iff _ (isAccepted_iff p).symm

variable {p : Place}

lemma IsAccepted.group?_eq (h : p.IsAccepted) : p.group? = p.subcategory := by
  rw [group?]
  cases hs : p.subcategory with
  | none => rfl
  | some s =>
    have hword := (isWord_of_checkSubcategory (h.subcategory s hs)).1
    simp [hword.ne_empty]

lemma isStep_names (hfolder : IsStep (typeFolder p.draft.type)) (hname : checkName p.draft.name = .ok ())
    (hcategory : checkCategory p.draft.category = .ok ())
    (hgroup : ∀ s ∈ p.group?, checkSubcategory s = .ok ()) : ∀ n ∈ p.names, IsStep n := by
  intro n hn
  rw [names, mem_append, mem_append, Option.mem_toList, mem_singleton] at hn
  rcases hn with (hn | hn) | rfl
  · rcases mem_cons.mp hn with rfl | hn
    · exact hfolder
    · rw [mem_singleton.mp hn]
      exact Path.isStep_of_isWord (isWord_of_checkCategory hcategory).1
  · exact Path.isStep_of_isWord (isWord_of_checkSubcategory (hgroup n hn)).1
  · exact Path.isStep_of_isWord (isWord_of_checkName hname)

lemma IsAccepted.isStep (h : p.IsAccepted) (htype : p.draft.type ∈ ["component", "pipeline"]) :
    ∀ n ∈ p.names, IsStep n := by
  refine isStep_names ?_ h.name h.category (h.group?_eq ▸ h.subcategory)
  simp only [mem_cons, not_mem_nil, or_false] at htype
  rcases htype with htype | htype <;> rw [htype] <;> decide

lemma folder_eq (hsteps : ∀ n ∈ p.names, IsStep n) : p.folder = ⟨"", p.names⟩ := by
  have htext : p.folder = Path.ofText (Text.join "/" p.names) := by
    rw [folder, names]
    cases p.group? with
    | none => simp [Text.join, String.append_assoc, toString]
    | some s => simp [Text.join, String.append_assoc, toString]
  rw [htext, Path.ofText_join (by simp [names]) hsteps]

lemma subcategoryFolder_eq {s : String} (hsteps : ∀ n ∈ p.names, IsStep n) (hs : p.group? = some s) :
    subcategoryFolder p.draft.type p.draft.category s =
      ⟨"", [typeFolder p.draft.type, p.draft.category, s]⟩ := by
  have htext : subcategoryFolder p.draft.type p.draft.category s =
      Path.ofText (Text.join "/" [typeFolder p.draft.type, p.draft.category, s]) := by
    simp [subcategoryFolder, Text.join, String.append_assoc, toString]
  rw [htext, Path.ofText_join (cons_ne_nil _ _)]
  intro n hn
  apply hsteps
  rw [names, hs]
  simp only [mem_cons, not_mem_nil, or_false] at hn
  rcases hn with rfl | rfl | rfl <;> simp

end Place

/-! ## What making an asset adds -/

/-- The files and the folder that the making of an asset leaves in its subcategory. -/
def groupNames : List String := ["OWNERS", "README.md", "__init__.py", "shared"]

/-- The places at which something may appear when an asset is made: the folders down to it, what it
holds, and what its subcategory needs. -/
def Place.Adds (site : Site) (p : Place) (l : Location) : Prop :=
  (∀ n ∈ l, IsPlainName n) ∧
    (l <+: site.home.names ++ p.names ∨ site.home.names ++ p.names <+: l ∨
      ∃ s, p.group? = some s ∧ ∃ m ∈ groupNames,
        site.home.names ++ [typeFolder p.draft.type, p.draft.category, s, m] <+: l)

section Making

variable {site : Site} {p : Place}
variable {files : List NamedText} {ns : List String}

lemma home_join (site : Site) (ns : List String) :
    (site.home.join ⟨"", ns⟩).names = site.home.names ++ ns := by
  simp [Path.join, Path.isAbsolute]

lemma below_eq (ns : List String) {n : String} (hn : IsStep n) :
    (⟨"", ns⟩ : Path).below n = ⟨"", ns ++ [n]⟩ := by
  rw [Path.below, Path.ofText_of_isStep hn]
  simp [Path.join, Path.isAbsolute]

lemma steps_append {ms : List String} (hns : ∀ n ∈ ns, IsStep n) (hms : ∀ n ∈ ms, IsStep n) :
    ∀ n ∈ ns ++ ms, IsStep n := by
  intro n hn
  rcases mem_append.mp hn with hn | hn
  · exact hns n hn
  · exact hms n hn

lemma dots_notMem (hns : ∀ n ∈ ns, IsStep n) : ".." ∉ ns :=
  fun h => (hns _ h).2.2 rfl

lemma isStep_of_mem_coreFiles {d : Draft} {now : Moment} (h : coreFiles d now = .ok files) :
    d.type ∈ ["component", "pipeline"] ∧ (∀ f ∈ files, IsStep f.1) ∧
      (∃ text, (d.type ++ ".py", text) ∈ files) ∧ ∃ text, ("metadata.yaml", text) ∈ files := by
  unfold coreFiles at h
  split at h
  · cases h
  · next lines hlines =>
    have htype : d.type ∈ ["component", "pipeline"] := by
      rw [moduleLines?] at hlines
      simp only [mem_cons, not_mem_nil, or_false]
      by_contra hnot
      obtain ⟨hcomponent, hpipeline⟩ := not_or.mp hnot
      simp [hcomponent, hpipeline] at hlines
    have hmodule : IsStep (d.type ++ ".py") := by
      simp only [mem_cons, not_mem_nil, or_false] at htype
      rcases htype with htype | htype <;> rw [htype] <;> decide
    cases h
    refine ⟨htype, ?_, ⟨ofLines lines, by simp⟩, ⟨ofLines (metadataLines d now), by simp⟩⟩
    simp only [forall_mem_cons, hmodule]
    decide

lemma isStep_of_mem_testFiles {d : Draft} (htype : d.type ∈ ["component", "pipeline"]) :
    ∀ f ∈ testFiles d, IsStep f.1 := by
  simp only [mem_cons, not_mem_nil, or_false] at htype
  simp only [testFiles, forall_mem_cons]
  rcases htype with htype | htype <;> rw [htype] <;> decide

/-- The names at which something may appear, from the root of the catalogue on. -/
def Place.Reaches (p : Place) (ns : List String) : Prop :=
  ns <+: p.names ∨ p.names <+: ns ∨ ∃ s, p.group? = some s ∧ ∃ m ∈ groupNames,
    [typeFolder p.draft.type, p.draft.category, s, m] <+: ns

/-- All that the making of an asset does, step by step, respects a relation: folders are made, new
files are written to its subcategory, and files of its own are written. -/
structure Place.Respects (site : Site) (p : Place) (R : World → World → Prop) : Prop where
  folders : ∀ ns, (∀ n ∈ ns, IsStep n) → (∀ ms, ms <+: ns → p.Reaches ms) →
    Moves site R (fun _ => True) (Run.makeFolders ⟨"", ns⟩)
  group : ∀ s n ms text, p.group? = some s → n ∈ groupNames →
    (∀ m ∈ [typeFolder p.draft.type, p.draft.category, s] ++ n :: ms, IsStep m) →
    Moves site R (fun _ => True)
      (writeNew ⟨"", [typeFolder p.draft.type, p.draft.category, s] ++ n :: ms⟩ text)
  own : ∀ n ms text, (∀ m ∈ p.names ++ n :: ms, IsStep m) →
    Moves site R (fun _ => True) (Run.writeText ⟨"", p.names ++ n :: ms⟩ text)

variable {R : World → World → Prop} [IsPreorder World R]

section

variable (h : p.Respects site R) (hsteps : ∀ n ∈ p.names, IsStep n)
include h hsteps

lemma ensureSubcategory_moves {s : String} (hs : p.group? = some s) (shared : Bool) :
    Moves site R (fun _ => True)
      (ensureSubcategory p.draft.type p.draft.category s shared) := by
  have hnames : p.names = [typeFolder p.draft.type, p.draft.category, s] ++ [p.draft.name] := by
    rw [names, hs]
    rfl
  have hgroup : ∀ n ∈ [typeFolder p.draft.type, p.draft.category, s], IsStep n :=
    fun n hn => hsteps n (by rw [hnames]; exact mem_append_left _ hn)
  have habove (ms : List String) (hms : ms <+: [typeFolder p.draft.type, p.draft.category, s]) :
      p.Reaches ms := by
    refine .inl (hms.trans ?_)
    rw [hnames]
    exact prefix_append _ _
  have hfile {m : String} (hm : m ∈ groupNames) (text : String) : Moves site R (fun _ => True)
      (writeNew ⟨"", [typeFolder p.draft.type, p.draft.category, s] ++ [m]⟩ text) := by
    refine h.group s m [] text hs hm (steps_append hgroup ?_)
    simp only [groupNames, mem_cons, not_mem_nil, or_false] at hm
    rcases hm with rfl | rfl | rfl | rfl <;> decide
  have hutils : IsStep (s ++ "_utils.py") := by
    have hne (t : String) (ht : 'y' ∉ t.toList) : s ++ "_utils.py" ≠ t := by
      rintro rfl
      exact ht (by simp)
    refine ⟨⟨hne "" (by decide), ?_⟩, hne "." (by decide), hne ".." (by decide)⟩
    rw [String.toList_append, mem_append, not_or]
    exact ⟨(hgroup s (by simp)).1.2, by decide⟩
  unfold ensureSubcategory
  rw [subcategoryFolder_eq hsteps hs]
  apply Moves.bind (h.folders _ hgroup habove)
  intro _
  apply Moves.bind
  · apply Moves.forM
    intro f hf
    simp only [subcategoryFiles, mem_cons, not_mem_nil, or_false] at hf
    rcases hf with rfl | rfl
    · dsimp only
      exact hfile (by decide) _
    · dsimp only
      exact hfile (by decide) _
  intro _
  apply Moves.bind
  · rw [below_eq _ (by decide)]
    exact hfile (by decide) _
  intro _
  cases shared with
  | false => exact .pure _
  | true =>
    have hshared : ∀ n ∈ [typeFolder p.draft.type, p.draft.category, s] ++ ["shared"], IsStep n :=
      steps_append hgroup (by decide)
    have hnew {m : String} (hm : IsStep m) (text : String) : Moves site R (fun _ => True)
        (writeNew ⟨"", [typeFolder p.draft.type, p.draft.category, s] ++ ["shared"] ++ [m]⟩ text) :=
      h.group s "shared" [m] text hs (by decide)
        (steps_append hgroup (forall_mem_cons.mpr ⟨by decide, by simpa using hm⟩))
    rw [if_pos rfl, below_eq _ (by decide : IsStep "shared")]
    dsimp only
    rw [below_eq _ (by decide : IsStep "__init__.py"), below_eq _ hutils]
    apply Moves.bind
    · apply h.folders _ hshared
      intro ms hms
      rcases prefix_concat_iff.mp hms with rfl | hms
      · exact .inr (.inr ⟨s, hs, "shared", by decide, prefix_refl _⟩)
      · exact habove ms hms
    intro _
    apply Moves.bind (hnew (by decide) _)
    intro _
    apply Moves.bind (hnew hutils _)
    intro _
    exact .pure _

lemma makeRoom_moves (tests : Bool) : Moves site R (fun _ => True) (makeRoom p tests) := by
  rw [makeRoom, folder_eq hsteps, below_eq _ (by decide : IsStep "tests")]
  apply Moves.bind (h.folders _ hsteps fun _ => .inl)
  intro _
  refine .ite (h.folders _ (steps_append hsteps (by decide)) fun ms hms => ?_) (.pure ())
  rcases prefix_concat_iff.mp hms with rfl | hms
  · exact .inr (.inl (prefix_append _ _))
  · exact .inl hms

lemma create_moves (tests shared : Bool) :
    Moves site R (fun _ => True) (create p tests shared) := by
  apply Moves.bind
  · rw [ensureGroup]
    cases hs : p.group? with
    | none => exact .pure ()
    | some s => exact .bind (ensureSubcategory_moves h hsteps hs shared) fun _ => .pure ()
  intro _
  apply Moves.bind (makeRoom_moves h hsteps tests)
  intro _ w
  rw [bind_apply, Run.read_apply]
  dsimp only
  cases hcore : coreFiles p.draft site.now with
  | error e => exact ⟨refl w, fun _ _ => trivial⟩
  | ok core =>
    obtain ⟨htype, hfiles, _⟩ := isStep_of_mem_coreFiles hcore
    have hwrite : Moves site R (fun _ => True) (writeAll p.folder core) := by
      refine Moves.forM fun f hf => ?_
      dsimp only
      rw [folder_eq hsteps, below_eq _ (hfiles f hf)]
      exact h.own f.1 [] f.2 (steps_append hsteps (by simpa using hfiles f hf))
    have htests : Moves site R (fun _ => True)
        (writeAll (p.folder.below "tests") (testFiles p.draft)) := by
      refine Moves.forM fun f hf => ?_
      have hf := isStep_of_mem_testFiles htype f hf
      dsimp only
      rw [folder_eq hsteps, below_eq _ (by decide : IsStep "tests"), below_eq _ hf, append_assoc]
      exact h.own "tests" [f.1] f.2
        (steps_append hsteps (forall_mem_cons.mpr ⟨by decide, by simpa using hf⟩))
    exact Moves.bind hwrite (fun _ => Moves.when htests fun _ => Moves.pure _) w

end

lemma writeNew_moves {file : Path} {text : String}
    (h : Moves site R (fun _ => True) (Run.writeText file text)) :
    Moves site R (fun _ => True) (writeNew file text) :=
  Moves.bind (Moves.exists? _) fun _ => Moves.ite h (.pure ())

/-! ## What appears -/

section

variable (hhome : ∀ n ∈ site.home.names, IsStep n) (hns : ∀ n ∈ ns, IsStep n)
include hhome hns

lemma adds_of_reaches (h : p.Reaches ns) : p.Adds site (site.home.names ++ ns) := by
  refine ⟨fun n hn => (steps_append hhome hns n hn).1, ?_⟩
  rcases h with h | h | ⟨s, hs, m, hm, h⟩
  · exact .inl ((prefix_append_right_inj _).mpr h)
  · exact .inr (.inl ((prefix_append_right_inj _).mpr h))
  · exact .inr (.inr ⟨s, hs, m, hm, (prefix_append_right_inj _).mpr h⟩)

lemma writeText_grows {added : Location → Prop} (hadded : added (site.home.names ++ ns))
    (text : String) : Run.Grows site added (Run.writeText ⟨"", ns⟩ text) := by
  apply Run.Grows.writeText
  · rw [home_join]
    exact dots_notMem (steps_append hhome hns)
  · rwa [home_join]

lemma writeAll_grows (hfiles : ∀ f ∈ files, IsStep f.1) :
    Run.Grows site (fun _ => True) (writeAll ⟨"", ns⟩ files) := by
  refine Moves.forM fun f hf => ?_
  dsimp only
  rw [below_eq ns (hfiles f hf)]
  exact writeText_grows hhome (steps_append hns (by simpa using hfiles f hf)) trivial f.2

lemma exists_of_writeAll (hfiles : ∀ f ∈ files, IsStep f.1)
    (h : writeAll ⟨"", ns⟩ files site w = (.ok (), w')) :
    ∀ f ∈ files, w'.tree.exists? (site.home.names ++ (ns ++ [f.1])) := by
  induction files generalizing w with
  | nil => simp
  | cons f files ih =>
    obtain ⟨hf, hrest⟩ := forall_mem_cons.mp hfiles
    obtain ⟨_, v, hfirst, hnext⟩ := bind_eq_ok h
    have hgrows : v.tree.Grows (fun _ => True) (writeAll ⟨"", ns⟩ files site v).2.tree :=
      (writeAll_grows hhome hns hrest v).1
    rw [writeAll, hnext] at hgrows
    have hwritten := Run.writeText_eq_ok hfirst
    rw [below_eq ns hf, home_join] at hwritten
    have hdots : ".." ∉ site.home.names ++ (ns ++ [f.1]) :=
      dots_notMem (steps_append hhome (steps_append hns (by simpa using hf)))
    rintro g (_ | ⟨_, hg⟩)
    · exact hgrows.exists? (Tree.write_grows hdots hwritten).2
    · exact ih hrest hnext g hg

end

lemma respects_grows (hhome : ∀ n ∈ site.home.names, IsStep n) (p : Place) :
    p.Respects site fun v w => v.tree.Grows (p.Adds site) w.tree where
  folders ns hns hreach := by
    apply Run.Grows.makeFolders
    · rw [home_join]
      exact dots_notMem (steps_append hhome hns)
    · rw [home_join]
      intro l hl
      rcases prefix_or_prefix_of_prefix hl (prefix_append _ _) with hl' | ⟨ms, rfl⟩
      · exact ⟨fun n hn => (hhome n (hl'.subset hn)).1, .inl (hl'.trans (prefix_append _ _))⟩
      · have hms := (prefix_append_right_inj _).mp hl
        exact adds_of_reaches hhome (fun n hn => hns n (hms.subset hn)) (hreach ms hms)
  group s n ms text hs hn hsteps := by
    apply writeNew_moves
    exact writeText_grows hhome hsteps (adds_of_reaches hhome hsteps
      (.inr (.inr ⟨s, hs, n, hn, ms, by simp⟩))) text
  own n ms text hsteps :=
    writeText_grows hhome hsteps (adds_of_reaches hhome hsteps (.inr (.inl (prefix_append _ _)))) text

lemma create_eq_ok {tests shared : Bool} {folder : Path}
    (h : create p tests shared site w = (.ok folder, w')) :
    ∃ core u₁ u₂ u₃, coreFiles p.draft site.now = .ok core ∧
      ensureGroup p shared site w = (.ok (), u₁) ∧ makeRoom p tests site u₁ = (.ok (), u₂) ∧
      writeAll p.folder core site u₂ = (.ok (), u₃) ∧
      (if tests then writeAll (p.folder.below "tests") (testFiles p.draft) else pure ()) site u₃ =
        (.ok (), w') := by
  obtain ⟨_, u₁, hgroup, h⟩ := bind_eq_ok h
  obtain ⟨_, u₂, hroom, h⟩ := bind_eq_ok h
  obtain ⟨s, _, hread, h⟩ := bind_eq_ok h
  cases hread
  obtain ⟨core, _, hgiven, h⟩ := bind_eq_ok h
  rw [Run.ofExcept_apply] at hgiven
  obtain ⟨hcore, rfl⟩ := Prod.mk.inj hgiven
  obtain ⟨_, u₃, hwrite, h⟩ := bind_eq_ok h
  refine ⟨core, u₁, u₂, u₃, hcore, hgroup, hroom, hwrite, ?_⟩
  cases tests with
  | false =>
    cases h
    rfl
  | true =>
    obtain ⟨_, _, htests, h⟩ := bind_eq_ok h
    cases h
    exact htests

end Making

def Place.marks (p : Place) : List String := [p.draft.type ++ ".py", "metadata.yaml"]

/-- The tree `u` is `t` with an asset made in it. -/
structure Place.Made (site : Site) (p : Place) (t u : Tree) : Prop where
  type : p.draft.type ∈ ["component", "pipeline"]
  grows : t.Grows (p.Adds site) u
  holds : ∀ n ∈ p.marks, u.exists? (site.home.names ++ (p.names ++ [n])) = true

lemma made_of_create {site : Site} {p : Place} {tests shared : Bool} {folder : Path}
    (hhome : ∀ n ∈ site.home.names, IsStep n) (haccepted : p.IsAccepted)
    (h : create p tests shared site w = (.ok folder, w')) : p.Made site w.tree w'.tree := by
  obtain ⟨core, u₁, u₂, u₃, hcore, hgroup, hroom, hwrite, htests⟩ := create_eq_ok h
  obtain ⟨htype, hfiles, ⟨module, hmodule⟩, ⟨metadata, hmetadata⟩⟩ := isStep_of_mem_coreFiles hcore
  have hsteps := haccepted.isStep htype
  have hgrows := (create_moves (respects_grows hhome p) hsteps tests shared w).1
  have hgrowsTests : u₃.tree.Grows (fun _ => True) w'.tree := by
    have hfolder := steps_append hsteps (by decide : ∀ n ∈ ["tests"], IsStep n)
    have hmoves := (Moves.ite (c := tests)
      (writeAll_grows hhome hfolder (isStep_of_mem_testFiles htype)) (.pure ()) u₃).1
    rw [folder_eq hsteps, below_eq _ (by decide : IsStep "tests")] at htests
    rwa [htests] at hmoves
  rw [h] at hgrows
  refine ⟨htype, hgrows, ?_⟩
  rw [folder_eq hsteps] at hwrite
  have hthere := exists_of_writeAll hhome hsteps hfiles hwrite
  rintro n (_ | ⟨_, _ | ⟨_, ⟨⟩⟩⟩)
  · exact hgrowsTests.exists? (hthere _ hmodule)
  · exact hgrowsTests.exists? (hthere _ hmetadata)

end AssetCatalog.Skeleton
