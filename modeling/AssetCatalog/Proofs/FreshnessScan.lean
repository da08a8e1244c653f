import AssetCatalog.Freshness.Report
import AssetCatalog.Proofs.AssetPlaces
import AssetCatalog.Proofs.CompileSelection
import AssetCatalog.Proofs.CompiledEntrypoints
import AssetCatalog.Proofs.StampReading

/-!
# Filing assets by age

Each asset is filed once, by its own metadata alone.
-/

namespace AssetCatalog

open List Asset Metadata Value World

open Run (bind_apply bind_eq_ok bind_of_eq)

variable {age : Age} {e : Entry} {m : Moment}

def World.warned (w : World) (ls : List String) : World :=
  { w with errors := w.errors ++ String.join (ls.map (· ++ "\n")) }

@[simp] lemma World.warned_nil (w : World) : w.warned [] = w := by simp [World.warned]

@[simp] lemma World.warned_warned (w : World) (ls ms : List String) :
    (w.warned ls).warned ms = w.warned (ls ++ ms) := by
  simp [World.warned, String.append_assoc]

namespace Run

@[simp] lemma printError_apply (s : String) (site : Site) (w : World) :
    printError s site w = (.ok (), w.warned [s]) := by
  simp [printError, World.warned, String.append_assoc]

lemma mapM_warned {α β : Type} {f : α → Run β} {g : α → β × List String} {site : Site} {t : Tree}
    (h : ∀ a w, w.tree = t → f a site w = (.ok (g a).1, w.warned (g a).2)) (xs : List α) {w : World}
    (hw : w.tree = t) :
    xs.mapM f site w = (.ok (xs.map fun a => (g a).1), w.warned (xs.flatMap fun a => (g a).2)) := by
  induction xs generalizing w with
  | nil => simp
  | cons a xs ih =>
    have hrest : (w.warned (g a).2).tree = t := hw
    rw [mapM_cons, bind_of_eq (h a w hw), bind_of_eq (ih hrest)]
    simp

end Run

namespace Freshness

variable {site : Site} {t : Tree} {base : Path}
variable {fields : List (Value × Value)} {paths : List String} {path : String} {stamp : Value}
  {w : World}

/-! ## One asset -/

/-- What the metadata in a file say of an asset, and the warnings on the way. -/
def judgement (site : Site) (t : Tree) (file : Path) (path : String) :
    Except Fault (Age × Entry) × List String :=
  match valueAt site t file with
  | .error e => (.error e, [])
  | .ok v =>
    match tellsStamp v with
    | .error e => (.error e, [])
    | .ok true => (verdict site.now.instant path v, [])
    | .ok false =>
      ((v.get "name").map fun name => (.stale, .unknown path (name.getD (.text "unknown"))),
        [s!"Warning: Missing lastVerified in {file.text}, marking as stale"])

lemma judge_apply (file : Path) (path : String) (w : World) : judge file path site w =
      ((judgement site w.tree file path).1, w.warned (judgement site w.tree file path).2) := by
  rw [judge, bind_apply, Metadata.loadYaml_apply, judgement]
  rcases Metadata.valueAt site w.tree file with e | v
  · simp
  dsimp only
  rw [bind_apply, Run.ofExcept_apply]
  rcases tellsStamp v with e | _ | _
  · simp
  · dsimp only
    rw [if_neg Bool.false_ne_true, bind_of_eq (Run.printError_apply _ site w), bind_apply,
      Run.ofExcept_apply]
    rcases v.get "name" with e | name <;> rfl
  · dsimp only
    simp

def fileOf (base : Path) (path : String) : Path := (base.below path).below Metadata.fileName

/-- Where an asset is filed and as what, and what is said of it. -/
def filed (site : Site) (t : Tree) (base : Path) (path : String) : (Age × Entry) × List String :=
  match judgement site t (fileOf base path) path with
  | (.ok r, ls) => (r, ls)
  | (.error _, ls) => ((.stale, .unknown path),
      ls ++ [s!"Error processing {(fileOf base path).text}", "Marking as stale"])

lemma judgeAsset_apply (path : String) (w : World) : judgeAsset base path site w =
    (.ok (filed site w.tree base path).1, w.warned (filed site w.tree base path).2) := by
  change tryCatch (judge (fileOf base path) path) _ site w = _
  rw [Run.tryCatch_apply, judge_apply]
  unfold filed
  generalize judgement site w.tree (fileOf base path) path = judged
  obtain ⟨e | r, ls⟩ := judged
  · simp only [bind_apply, Run.printError_apply, World.warned_warned,
      append_assoc]
    rfl
  · rfl

/-- The metadata of an asset have a stamp that can be read, and so many days have passed since. -/
def Dated (site : Site) (t : Tree) (base : Path) (path : String) (days : Int) : Prop :=
  ∃ fields stamp u, Metadata.valueAt site t (fileOf base path) = .ok (.map fields) ∧
    Value.named "lastVerified" fields = some stamp ∧ parseMoment stamp.plain = .ok u ∧
    days = daysBetween u.instant site.now.instant

lemma tellsStamp_map (h : named "lastVerified" fields = some stamp) :
    tellsStamp (.map fields) = .ok true := by
  cases fields with
  | nil => cases h
  | cons e es =>
    have htrue : (Value.map (e :: es)).truthy := rfl
    rw [tellsStamp, if_pos htrue, mentions, h]
    rfl

def entryAt (now : Int) (path : String) (fields : List (Value × Value)) (u : Moment) : Entry where
  name := (named "name" fields).getD (.text "unknown")
  path := path
  lastVerified := dayText u.date
  days := daysBetween u.instant now

lemma verdict_of_named {now : Int} (hstamp : named "lastVerified" fields = some stamp) :
    verdict now path (.map fields) = (parseMoment stamp.plain).map fun u =>
      (.ofDays (daysBetween u.instant now), entryAt now path fields u) := by
  have hneed : (Value.map fields).need "lastVerified" = .ok stamp := by
    rw [need, hstamp]
    rfl
  rw [verdict, hneed, except_ok_bind]
  cases parseMoment stamp.plain <;> rfl

lemma verdict_eq_ok {now : Int} {v : Value} (h : verdict now path v = .ok (age, e)) :
    ∃ fields stamp u, v = .map fields ∧ named "lastVerified" fields = some stamp ∧
      parseMoment stamp.plain = .ok u ∧ e.days = daysBetween u.instant now ∧
      age = .ofDays e.days ∧ e.path = path := by
  obtain ⟨stamp, hneed, -⟩ := except_bind_eq_ok.mp h
  cases v with
  | map fields =>
    cases hstamp : named "lastVerified" fields with
    | none =>
      rw [need, hstamp] at hneed
      cases hneed
    | some stamp =>
      rw [verdict_of_named hstamp] at h
      cases hu : parseMoment stamp.plain with
      | error fault => simp [hu, Except.map] at h
      | ok u =>
        rw [hu] at h
        cases h
        exact ⟨fields, stamp, u, rfl, hstamp, hu, rfl, rfl, rfl⟩
  | _ => cases hneed

section

variable (hvalue : valueAt site t (fileOf base path) = .ok (.map fields))
  (hstamp : named "lastVerified" fields = some stamp)
include hvalue hstamp

lemma judgement_of_named :
    judgement site t (fileOf base path) path = ((parseMoment stamp.plain).map fun u =>
      (.ofDays (daysBetween u.instant site.now.instant), entryAt site.now.instant path fields u), []) := by
  unfold judgement
  rw [hvalue]
  dsimp only
  rw [tellsStamp_map hstamp, ← verdict_of_named hstamp]

lemma filed_of_stamp {u : Moment} (hu : parseMoment stamp.plain = .ok u) :
    filed site t base path = ((.ofDays (daysBetween u.instant site.now.instant),
      entryAt site.now.instant path fields u), []) := by
  unfold filed
  rw [judgement_of_named hvalue hstamp, hu]
  rfl

lemma filed_of_unread {e : Fault} (he : parseMoment stamp.plain = .error e) :
    filed site t base path = ((.stale, .unknown path),
      [s!"Error processing {(fileOf base path).text}", "Marking as stale"]) := by
  unfold filed
  rw [judgement_of_named hvalue hstamp, he]
  rfl

end

lemma filed_cases (site : Site) (t : Tree) (base : Path) (path : String) :
    (filed site t base path).1.2.path = path ∧
      ((filed site t base path).1.1 = .stale ∨
        Dated site t base path (filed site t base path).1.2.days ∧
          (filed site t base path).1.1 = .ofDays (filed site t base path).1.2.days) := by
  unfold filed
  rcases hjudged : judgement site t (fileOf base path) path with ⟨e | ⟨age, e⟩, ls⟩
  · exact ⟨rfl, .inl rfl⟩
  unfold judgement at hjudged
  split at hjudged
  · cases hjudged
  · next v hv =>
    split at hjudged
    · cases hjudged
    · obtain ⟨fields, stamp, u, rfl, hstamp, hu, hdays, hage, hpath⟩ :=
        verdict_eq_ok (Prod.mk.inj hjudged).1
      exact ⟨hpath, .inr ⟨⟨fields, stamp, u, hv, hstamp, hu, hdays⟩, hage⟩⟩
    · obtain ⟨hentry, -⟩ := Prod.mk.inj hjudged
      rcases hname : v.get "name" with fault | name
      · rw [hname] at hentry
        cases hentry
      · rw [hname] at hentry
        cases hentry
        exact ⟨rfl, .inl rfl⟩

/-! ## All assets -/

namespace Scan

def all (s : Scan) : List Entry := s.fresh ++ s.warning ++ s.stale

lemma all_add_perm (s : Scan) (age : Age) (e : Entry) : (s.add age e).all.Perm (s.all ++ [e]) := by
  have hlast (xs : List Entry) : (e :: xs).Perm (xs ++ [e]) := (perm_append_singleton e xs).symm
  cases age with
  | fresh => simpa [add, all] using (hlast (s.warning ++ s.stale)).append_left s.fresh
  | warning => simpa [add, all] using ((hlast s.stale).append_left s.warning).append_left s.fresh
  | stale => simp [add, all]

lemma all_foldl_perm (judged : List (Age × Entry)) (s : Scan) :
    (judged.foldl (fun s (age, e) => s.add age e) s).all.Perm (s.all ++ judged.map Prod.snd) := by
  induction judged generalizing s with
  | nil => simp
  | cons j judged ih =>
    rw [foldl_cons, map_cons, ← singleton_append, ← append_assoc]
    exact (ih (s.add j.1 j.2)).trans ((all_add_perm s j.1 j.2).append_right _)

lemma get_add (s : Scan) (age other : Age) (e : Entry) :
    (s.add age e).get other = s.get other ++ if age = other then [e] else [] := by
  cases age <;> cases other <;> simp [add, get]

lemma get_foldl (judged : List (Age × Entry)) (s : Scan) (age : Age) :
    (judged.foldl (fun s (age, e) => s.add age e) s).get age =
      s.get age ++ (judged.filter (·.1 = age)).map Prod.snd := by
  induction judged generalizing s with
  | nil => simp
  | cons j judged ih =>
    rw [foldl_cons, ih, get_add, append_assoc, filter_cons]
    by_cases hj : j.1 = age <;> simp [hj]

end Scan

def scanOf (site : Site) (t : Tree) (base : Path) (paths : List String) : Scan :=
  (paths.map fun path => (filed site t base path).1).foldl (fun s (age, e) => s.add age e) {}

lemma scan_of_paths (h : Asset.allWithMetadata base site w = (.ok paths, w)) :
    scan base site w = (.ok (scanOf site w.tree base paths),
      w.warned (paths.flatMap fun path => (filed site w.tree base path).2)) := by
  have hmapM := Run.mapM_warned (t := w.tree) (f := judgeAsset base) (g := filed site w.tree base)
    (fun path v hv => by rw [← hv]; exact judgeAsset_apply path v) paths rfl
  rw [scan, bind_of_eq h, bind_of_eq hmapM]
  rfl

lemma mem_get_scanOf :
    e ∈ (scanOf site t base paths).get age ↔ ∃ path ∈ paths, (filed site t base path).1 = (age, e) := by
  have hempty : ({} : Scan).get age = [] := by cases age <;> rfl
  rw [scanOf, Scan.get_foldl, hempty, nil_append, mem_map]
  constructor
  · rintro ⟨j, hj, rfl⟩
    obtain ⟨hj, hage⟩ := mem_filter.mp hj
    obtain ⟨path, hpath, hfiled⟩ := mem_map.mp hj
    exact ⟨path, hpath, hfiled.trans (Prod.ext (of_decide_eq_true hage) rfl)⟩
  · rintro ⟨path, hpath, hfiled⟩
    refine ⟨(age, e), mem_filter.mpr ⟨?_, by simp⟩, rfl⟩
    exact mem_map.mpr ⟨path, hpath, hfiled⟩

lemma all_scanOf_perm (paths : List String) :
    ((scanOf site t base paths).all.map Entry.path).Perm paths := by
  have hperm := (Scan.all_foldl_perm (paths.map fun path => (filed site t base path).1) {}).map Entry.path
  have hpaths : (paths.map fun path => (filed site t base path).1.2.path) = paths := by
    simp [(filed_cases site t base _).1]
  simpa [scanOf, Scan.all, Function.comp_def, hpaths] using hperm

/-! ## The folders of the two kinds -/

/-- No file stands where the folder of a kind should be. -/
def RootsOpen (site : Site) (t : Tree) (base : Path) : Prop :=
  ∀ kind ∈ ["components", "pipelines"],
    t.exists? (site.home.join (base.below kind)).names = true →
      t.isFolder (site.home.join (base.below kind)).names = true
deriving Decidable

lemma metadataFolders_of_open {kind : String} (hkind : Path.IsStep kind) (hnames : t.PlainNames)
    (h : t.exists? (site.home.join (base.below kind)).names →
      t.isFolder (site.home.join (base.below kind)).names) :
    ∃ paths, metadataFolders site t kind base = .ok paths ∧ paths.Nodup ∧
      ∀ path ∈ paths, ∃ r, path = kind ++ r := by
  unfold metadataFolders
  split
  · next hthere =>
    obtain ⟨names, hnamed, -⟩ := Tree.namesIn_of_isFolder (h hthere)
    rw [hnamed]
    refine ⟨_, rfl, nodup_folders (w := { tree := t }) hkind (by decide) hnames (h hthere), ?_⟩
    intro path hpath
    obtain ⟨a, -, rfl⟩ := mem_map.mp hpath
    exact ⟨_, by rw [folder_eq, inside, cons_append, Text.join_cons_cons, String.append_assoc]⟩
  · exact ⟨[], rfl, nodup_nil, by simp⟩

lemma metadataFolders_of_closed {kind : String}
    (hthere : t.exists? (site.home.join (base.below kind)).names)
    (hfolder : t.isFolder (site.home.join (base.below kind)).names = false) :
    ∃ e, metadataFolders site t kind base = .error e := by
  obtain ⟨e, he⟩ := Tree.namesIn_of_notFolder hfolder
  rw [metadataFolders, if_pos hthere, he]
  exact ⟨e, rfl⟩

lemma allWithMetadata_apply (w : World) : allWithMetadata base site w = ((do
      let components ← metadataFolders site w.tree "components" base
      let pipelines ← metadataFolders site w.tree "pipelines" base
      pure (components ++ pipelines) : Except Fault (List String)), w) := by
  rw [allWithMetadata, bind_apply, withMetadata_apply]
  rcases metadataFolders site w.tree "components" base with e | components
  · rfl
  · dsimp only
    rw [bind_apply, withMetadata_apply]
    rcases metadataFolders site w.tree "pipelines" base with e | pipelines <;> rfl

lemma allWithMetadata_of_open (hnames : w.tree.PlainNames) (hroots : RootsOpen site w.tree base) :
    ∃ paths, allWithMetadata base site w = (.ok paths, w) ∧ paths.Nodup := by
  obtain ⟨components, hcomponents, hnodup, hc⟩ :=
    metadataFolders_of_open (by decide) hnames (hroots "components" (by simp))
  obtain ⟨pipelines, hpipelines, hnodup', hp⟩ :=
    metadataFolders_of_open (by decide) hnames (hroots "pipelines" (by simp))
  refine ⟨components ++ pipelines, ?_, nodup_append.mpr ⟨hnodup, hnodup', ?_⟩⟩
  · rw [allWithMetadata_apply, hcomponents, hpipelines]
    rfl
  · rintro path hpath _ hother rfl
    obtain ⟨r, rfl⟩ := hc path hpath
    obtain ⟨q, hq⟩ := hp _ hother
    have hfirst := congrArg String.toList hq
    simp at hfirst

lemma rootsOpen_of_allWithMetadata {v : World}
    (h : allWithMetadata base site w = (.ok paths, v)) :
    v = w ∧ RootsOpen site w.tree base := by
  rw [allWithMetadata_apply, Prod.mk.injEq] at h
  obtain ⟨components, hcomponents, hrest⟩ := except_bind_eq_ok.mp h.1
  obtain ⟨pipelines, hpipelines, -⟩ := except_bind_eq_ok.mp hrest
  have hopen {kind : String} {found : List String}
      (hfound : metadataFolders site w.tree kind base = .ok found)
      (hthere : w.tree.exists? (site.home.join (base.below kind)).names) :
      w.tree.isFolder (site.home.join (base.below kind)).names := by
    by_contra hclosed
    obtain ⟨e, he⟩ := metadataFolders_of_closed hthere (Bool.not_eq_true _ ▸ hclosed)
    cases hfound.symm.trans he
  refine ⟨h.2.symm, fun kind hkind => ?_⟩
  simp only [mem_cons, not_mem_nil, or_false] at hkind
  rcases hkind with rfl | rfl
  · exact hopen hcomponents
  · exact hopen hpipelines

lemma age_bounds {days : Int} : (Age.ofDays days = .fresh → days < 270) ∧
    (Age.ofDays days = .warning → 270 ≤ days ∧ days < 360) := by
  unfold Age.ofDays warningDay staleDay
  constructor <;> split_ifs <;> simp <;> omega

lemma dated_of_mem (hage : age ≠ .stale) (he : e ∈ (scanOf site t base paths).get age) :
    Dated site t base e.path e.days ∧ Age.ofDays e.days = age := by
  obtain ⟨path, -, hfiled⟩ := mem_get_scanOf.mp he
  obtain ⟨hpath, hstale | ⟨hdated, hofDays⟩⟩ := filed_cases site t base path
  · rw [hfiled] at hstale
    exact absurd hstale hage
  · rw [hfiled] at hpath hdated hofDays
    rw [hpath]
    exact ⟨hdated, hofDays.symm⟩

def newYear : Site := { Run.rootSite with now := { date := ⟨2026, 1, 1⟩, offset := some 0 } }

def loaderCatalogue (stamp : String) : Tree where
  files := [(["components", "data", "loader", "metadata.yaml"],
    .text s!"name: loader\nlastVerified: {stamp}\n")]
  folders := [[], ["components"], ["components", "data"], ["components", "data", "loader"]]

lemma loader_found (stamp : String) :
    allWithMetadata ⟨"", []⟩ newYear { tree := loaderCatalogue stamp } =
      (.ok ["components/data/loader"], { tree := loaderCatalogue stamp }) := by
  have hcomponents : metadataFolders newYear (loaderCatalogue stamp) "components" ⟨"", []⟩ =
      .ok ["components/data/loader"] := by cbv
  have hpipelines : metadataFolders newYear (loaderCatalogue stamp) "pipelines" ⟨"", []⟩ = .ok [] := rfl
  rw [allWithMetadata_apply, hcomponents, hpipelines]
  rfl

/-- A scan ends with a result exactly if no file stands where the folder of a kind should be. Then it
changes no file and files every asset with metadata once. What is filed as fresh or with a warning has a
stamp that was read, and lies in the bounds of that age; and all that has such a stamp is filed by it. -/
theorem scan_files_each_once {w : World} (hnames : w.tree.PlainNames) :
    ((∃ s v, scan base site w = (.ok s, v)) ↔ RootsOpen site w.tree base) ∧
    ∀ s v, scan base site w = (.ok s, v) →
      ∃ paths, Asset.allWithMetadata base site w = (.ok paths, w) ∧ v.tree = w.tree ∧ paths.Nodup ∧
        ((s.fresh ++ s.warning ++ s.stale).map Entry.path).Perm paths ∧
        (∀ e ∈ s.fresh, Dated site w.tree base e.path e.days ∧ e.days < 270) ∧
        (∀ e ∈ s.warning, Dated site w.tree base e.path e.days ∧ 270 ≤ e.days ∧ e.days < 360) ∧
        ∀ path ∈ paths, ∀ days, Dated site w.tree base path days →
          ∃ e ∈ s.get (.ofDays days), e.path = path ∧ e.days = days := by
  refine ⟨⟨?_, fun hroots => ?_⟩, ?_⟩
  · rintro ⟨s, v, hscan⟩
    obtain ⟨paths, u, hpaths, -⟩ := bind_eq_ok hscan
    exact (rootsOpen_of_allWithMetadata hpaths).2
  · obtain ⟨paths, hpaths, -⟩ := allWithMetadata_of_open hnames hroots
    exact ⟨_, _, scan_of_paths hpaths⟩
  · intro s v hscan
    obtain ⟨found, u, hfound, -⟩ := bind_eq_ok hscan
    obtain ⟨paths, hpaths, hnodup⟩ :=
      allWithMetadata_of_open hnames (rootsOpen_of_allWithMetadata hfound).2
    cases hscan.symm.trans (scan_of_paths hpaths)
    refine ⟨paths, hpaths, rfl, hnodup, all_scanOf_perm paths, fun e he => ?_, fun e he => ?_, ?_⟩
    · obtain ⟨hdated, hage⟩ := dated_of_mem (show Age.fresh ≠ .stale by decide) he
      exact ⟨hdated, age_bounds.1 hage⟩
    · obtain ⟨hdated, hage⟩ := dated_of_mem (show Age.warning ≠ .stale by decide) he
      exact ⟨hdated, age_bounds.2 hage⟩
    · rintro path hpath _ ⟨fields, stamp, m, hvalue, hstamp, hm, rfl⟩
      have hfiled := congrArg Prod.fst (filed_of_stamp hvalue hstamp hm)
      exact ⟨_, mem_get_scanOf.mpr ⟨path, hpath, hfiled⟩, rfl, rfl⟩

theorem scan_files_loader_once :
    ∃ s v, scan ⟨"", []⟩ newYear { tree := loaderCatalogue "2025-06-01T12:00:00Z" } = (.ok s, v) ∧
      ((s.fresh ++ s.warning ++ s.stale).map Entry.path).Perm ["components/data/loader"] := by
  obtain ⟨hends, hfiles⟩ := @scan_files_each_once newYear ⟨"", []⟩
    { tree := loaderCatalogue "2025-06-01T12:00:00Z" } (by decide)
  obtain ⟨s, v, hscan⟩ := hends.mpr (by decide +kernel)
  obtain ⟨paths, hpaths, -, -, hperm, -⟩ := hfiles s v hscan
  obtain ⟨hfound, -⟩ := Prod.mk.inj (hpaths.symm.trans (loader_found _))
  rw [Except.ok.inj hfound] at hperm
  exact ⟨s, v, hscan, hperm⟩

/-- A file in the place of the components keeps the scan from a result. -/
theorem scan_of_file_in_place :
    ¬ ∃ s v, scan ⟨"", []⟩ newYear { tree := { files := [(["components"], .text "")] } } = (.ok s, v) := by
  rintro ⟨s, v, hscan⟩
  obtain ⟨paths, u, hpaths, -⟩ := bind_eq_ok hscan
  exact absurd (rootsOpen_of_allWithMetadata hpaths).2 (by decide +kernel)

/-! ## Stamps that were accepted -/

lemma parseMoment_plain {o : Int} (h : m.IsProper) (ho : m.offset = some o) :
    parseMoment (Value.moment m).plain =
      if m.micro = 0 then .ok m
      else .error (.invalid ("Cannot parse date: " ++ m.text " ")) := by
  rw [plain, parseMoment, parseMoment?_text h ho]
  by_cases hmicro : m.micro = 0
  · rw [if_pos hmicro, if_pos hmicro]
    rfl
  · rw [if_neg hmicro, if_neg hmicro]
    rfl

lemma exists_offset_of_accepted {v : World}
    (h : checkVerified (.moment m) site w = (.ok true, v)) : ∃ o, m.offset = some o := by
  cases ho : m.offset with
  | some o => exact ⟨o, rfl⟩
  | none =>
    simp only [checkVerified, ho] at h
    cases h

def momentIn : Except Fault Value → Option Moment
  | .ok (.map fields) =>
    match named "lastVerified" fields with
    | some (.moment m) => some m
    | _ => none
  | _ => none

lemma exists_of_momentIn {r : Except Fault Value} (h : momentIn r = some m) :
    ∃ fields, r = .ok (.map fields) ∧ named "lastVerified" fields = some (.moment m) := by
  unfold momentIn at h
  split at h
  · next fields =>
    split at h
    · next n hn =>
      cases h
      exact ⟨fields, rfl, hn⟩
    · cases h
  · cases h

def noon : Moment := { date := ⟨2025, 6, 1⟩, hour := 12, offset := some 0 }

def afterNoon : Moment := { noon with micro := 500000 }

lemma isProper_noon : noon.IsProper :=
  ⟨by decide, by decide, by decide, by decide, by decide, by decide⟩

lemma momentIn_noon : momentIn (valueAt newYear (loaderCatalogue "2025-06-01T12:00:00Z")
    (fileOf ⟨"", []⟩ "components/data/loader")) = some noon := by
  decide +kernel

lemma momentIn_afterNoon : momentIn (valueAt newYear (loaderCatalogue "2025-06-01T12:00:00.5Z")
    (fileOf ⟨"", []⟩ "components/data/loader")) = some afterNoon := by
  decide +kernel

/-- A stamp that validation accepts is read back as the instant that it denotes exactly if it has no
fraction of a second. Then its asset is filed by its age and nothing is said of it; otherwise the asset
is filed as stale and as one that could not be processed. -/
theorem scan_of_accepted_stamp {w v : World} {m : Moment} {path : String} {paths : List String}
    {fields : List (Value × Value)} (hm : m.IsProper)
    (haccepted : Metadata.checkVerified (.moment m) site w = (.ok true, v))
    (hpaths : Asset.allWithMetadata base site w = (.ok paths, w)) (hpath : path ∈ paths)
    (hvalue : Metadata.valueAt site w.tree (fileOf base path) = .ok (.map fields))
    (hstamp : Value.named "lastVerified" fields = some (.moment m)) :
    ((∃ u, parseMoment (Value.moment m).plain = .ok u ∧ u.instant = m.instant) ↔ m.micro = 0) ∧
    ∃ s u age e ls, scan base site w = (.ok s, u) ∧ e ∈ s.get age ∧ e.path = path ∧
      judgeAsset base path site w = (.ok (age, e), w.warned ls) ∧
      if m.micro = 0 then
        age = .ofDays (Metadata.daysBetween m.instant site.now.instant) ∧
          e.days = Metadata.daysBetween m.instant site.now.instant ∧ e.lastVerified = dayText m.date ∧
          ls = []
      else
        age = .stale ∧ e = .unknown path ∧
          ls = [s!"Error processing {(fileOf base path).text}", "Marking as stale"] := by
  obtain ⟨o, ho⟩ := exists_offset_of_accepted haccepted
  have hread := parseMoment_plain hm ho
  have hjudged : judgeAsset base path site w = _ := judgeAsset_apply path w
  obtain ⟨hown, -⟩ := filed_cases site w.tree base path
  rcases hfiled : filed site w.tree base path with ⟨⟨age, e⟩, ls⟩
  rw [hfiled] at hjudged hown
  have hentry : e ∈ (scanOf site w.tree base paths).get age :=
    mem_get_scanOf.mpr ⟨path, hpath, congrArg Prod.fst hfiled⟩
  -- a fraction is written into the text of the stamp, and no form that is tried has a place for it
  by_cases hmicro : m.micro = 0
  · rw [if_pos hmicro] at hread
    rw [filed_of_stamp hvalue hstamp hread] at hfiled
    cases hfiled
    refine ⟨iff_of_true ⟨m, hread, rfl⟩ hmicro, ?_⟩
    refine ⟨_, _, _, _, _, scan_of_paths hpaths, hentry, hown, hjudged, ?_⟩
    rw [if_pos hmicro]
    exact ⟨rfl, rfl, rfl, rfl⟩
  · rw [if_neg hmicro] at hread
    rw [filed_of_unread hvalue hstamp hread] at hfiled
    cases hfiled
    refine ⟨iff_of_false ?_ hmicro, ?_⟩
    · rintro ⟨u, hu, -⟩
      cases hread.symm.trans hu
    · refine ⟨_, _, _, _, _, scan_of_paths hpaths, hentry, hown, hjudged, ?_⟩
      rw [if_neg hmicro]
      exact ⟨rfl, rfl, rfl⟩

-- a stamp that is ahead of the clock
example : Metadata.daysBetween 1 0 = -1 := by decide +kernel

theorem scan_of_accepted_noon :
    Metadata.checkVerified (.moment noon) newYear { tree := loaderCatalogue "2025-06-01T12:00:00Z" } =
        (.ok true, { tree := loaderCatalogue "2025-06-01T12:00:00Z" }) ∧
      ∃ s u e, scan ⟨"", []⟩ newYear { tree := loaderCatalogue "2025-06-01T12:00:00Z" } = (.ok s, u) ∧
        e ∈ s.fresh ∧ e.path = "components/data/loader" ∧ e.days = 213 := by
  have haccepted : Metadata.checkVerified (.moment noon) newYear
      { tree := loaderCatalogue "2025-06-01T12:00:00Z" } =
        (.ok true, { tree := loaderCatalogue "2025-06-01T12:00:00Z" }) := by cbv
  obtain ⟨fields, hvalue, hstamp⟩ := exists_of_momentIn momentIn_noon
  obtain ⟨-, s, u, age, e, ls, hscan, he, hpath, -, hfiled⟩ :=
    scan_of_accepted_stamp isProper_noon haccepted (loader_found _) (mem_singleton.mpr rfl)
      hvalue hstamp
  have hpassed : Metadata.daysBetween noon.instant newYear.now.instant = 213 := by decide +kernel
  have hwhole : noon.micro = 0 := rfl
  rw [if_pos hwhole, hpassed] at hfiled
  obtain ⟨rfl, hdays, -⟩ := hfiled
  exact ⟨haccepted, s, u, e, hscan, he, hpath, hdays⟩

/-- Half a second makes a stamp that is accepted one that cannot be read. -/
theorem scan_of_accepted_afterNoon : afterNoon.IsProper ∧
      Metadata.checkVerified (.moment afterNoon) newYear
        { tree := loaderCatalogue "2025-06-01T12:00:00.5Z" } =
          (.ok true, { tree := loaderCatalogue "2025-06-01T12:00:00.5Z" }) ∧
      (∀ u, parseMoment (Value.moment afterNoon).plain ≠ .ok u) ∧
      ∃ s u, scan ⟨"", []⟩ newYear { tree := loaderCatalogue "2025-06-01T12:00:00.5Z" } = (.ok s, u) ∧
        Entry.unknown "components/data/loader" ∈ s.stale := by
  have hproper : afterNoon.IsProper :=
    ⟨by decide, by decide, by decide, by decide, by decide, by decide⟩
  have hread := parseMoment_plain hproper rfl
  have hhalf : ¬ afterNoon.micro = 0 := by decide
  rw [if_neg hhalf] at hread
  obtain ⟨fields, hvalue, hstamp⟩ := exists_of_momentIn momentIn_afterNoon
  have hentry : Entry.unknown "components/data/loader" ∈
      (scanOf newYear (loaderCatalogue "2025-06-01T12:00:00.5Z") ⟨"", []⟩ ["components/data/loader"]).get
        .stale :=
    mem_get_scanOf.mpr ⟨_, mem_singleton.mpr rfl,
      congrArg Prod.fst (filed_of_unread hvalue hstamp hread)⟩
  refine ⟨hproper, by cbv, ?_, _, _, scan_of_paths (loader_found _), hentry⟩
  intro u hu
  rw [hread] at hu
  exact absurd hu (by simp)

/-! ## The report -/

variable {s : Scan}

/-- Lines for entries, the oldest first. -/
def Shown (age : Age) (es : List Entry) (lines : List String) : Prop :=
  ∃ sorted, sorted.Perm es ∧ sorted.Pairwise (fun a b => b.days ≤ a.days) ∧
    Forall₂ (fun e line => e.line age = .ok line) sorted lines

lemma shown_of_linesOf {lines : List String} (h : s.linesOf age = .ok lines) :
    Shown age (s.get age) lines := by
  have hsorted : (oldestFirst (s.get age)).Pairwise fun a b => decide (b.days ≤ a.days) = true :=
    pairwise_mergeSort (by simp; omega) (by simp; omega) _
  exact ⟨oldestFirst (s.get age), mergeSort_perm _ _, by simpa using hsorted, mapM_eq_ok.mp h⟩

lemma exists_linesOf_iff (s : Scan) (age : Age) : (∃ lines, s.linesOf age = .ok lines) ↔
    ∀ e ∈ s.get age, ∃ cell, nameCell e.name = .ok cell := by
  have hline (e : Entry) : (∃ line, e.line age = .ok line) ↔ ∃ cell, nameCell e.name = .ok cell := by
    simp only [Entry.line, except_bind_eq_ok, except_pure_eq_ok]
    constructor
    · rintro ⟨_, cell, h, -⟩
      exact ⟨cell, h⟩
    · rintro ⟨cell, h⟩
      exact ⟨_, cell, h, rfl⟩
  simp only [Scan.linesOf, exists_mapM_eq_ok, hline, oldestFirst, mem_mergeSort]

lemma report_eq_ok {text : String} : s.report = .ok text ↔ ∃ stale warning fresh,
    s.linesOf .stale = .ok stale ∧ s.linesOf .warning = .ok warning ∧ s.linesOf .fresh = .ok fresh ∧
      Text.join "\n" (s.summary :: (stale ++ warning ++ fresh)) = text := by
  simp only [Scan.report, except_bind_eq_ok, except_pure_eq_ok, exists_and_left]

end Freshness

end AssetCatalog
