import AssetCatalog.Wheel.Validation
import AssetCatalog.Proofs.AssetPlaces

/-!
# What a package that passes holds

The checks look for parts of names and lines, which may stand where they do not count.
-/

namespace AssetCatalog

open List Text

open Run (bind_apply rootSite)

variable {names : List String} {a : Archive}

namespace Text

variable {s : String}

/-! ## Parts of texts -/

lemma occursIn_iff (sub cs : List Char) : occursIn sub cs ↔ sub <:+: cs := by
  induction cs with
  | nil => simp [occursIn]
  | cons c cs ih =>
    rw [occursIn, Bool.or_eq_true, isPrefixOf_iff_prefix, ih, infix_cons_iff]

lemma contains_iff {sub : String} : contains s sub ↔ ∃ a b, s = a ++ sub ++ b := by
  rw [contains, occursIn_iff]
  constructor
  · rintro ⟨a, b, h⟩
    refine ⟨String.ofList a, String.ofList b, String.toList_inj.mp ?_⟩
    simp [← h]
  · rintro ⟨a, b, rfl⟩
    exact ⟨a.toList, b.toList, by simp⟩

lemma startsWith_iff {start : String} : startsWith s start ↔ ∃ r, s = start ++ r := by
  rw [startsWith, isPrefixOf_iff_prefix]
  constructor
  · rintro ⟨r, h⟩
    refine ⟨String.ofList r, String.toList_inj.mp ?_⟩
    simp [← h]
  · rintro ⟨r, rfl⟩
    exact ⟨r.toList, by simp⟩

lemma infix_intercalate {sep p : List Char} {pieces : List (List Char)}
    (h : p ∈ pieces) : p <:+: sep.intercalate pieces := by
  induction pieces with
  | nil => cases h
  | cons q qs ih =>
    cases qs with
    | nil => simp [mem_singleton.mp h]
    | cons r rs =>
      rw [intercalate_cons_cons]
      rcases mem_cons.mp h with rfl | h
      · exact ((prefix_append p sep).trans (prefix_append _ _)).isInfix
      · exact (ih h).trans (suffix_append _ _).isInfix

lemma contains_of_line {l start : String} (hl : l ∈ split "\n" s)
    (hstart : startsWith l start) : contains s start := by
  obtain ⟨piece, hpiece, rfl⟩ := mem_map.mp hl
  have hwhole : piece <:+: s.toList := by
    rw [← intercalate_splitList (cons_ne_nil '\n' []) s.toList]
    exact infix_intercalate hpiece
  rw [startsWith, isPrefixOf_iff_prefix, String.toList_ofList] at hstart
  rw [contains, occursIn_iff]
  exact hstart.isInfix.trans hwhole

lemma exists_lowerFrom_append (before a b : List Char) :
    ∃ u, lowerFrom before (a ++ b) = u ++ lowerFrom (a.reverse ++ before) b := by
  induction a generalizing before with
  | nil => exact ⟨[], rfl⟩
  | cons c a ih =>
    -- a letter may depend on what stands before it, so the text in front grows with the induction
    obtain ⟨u, hu⟩ := ih (c :: before)
    refine ⟨lowerWithin before c (a ++ b) ++ u, ?_⟩
    rw [cons_append, lowerFrom, hu, append_assoc]
    simp

lemma contains_lower {word : String} (hword : ∀ c ∈ word.toList, c.toNat < 128 ∧ c.toLower = c)
    (h : contains s word) : contains (lower s) word := by
  rw [contains, occursIn_iff] at h ⊢
  obtain ⟨a, b, hs⟩ := h
  obtain ⟨u, hu⟩ := exists_lowerFrom_append [] a (word.toList ++ b)
  rw [lower, String.toList_ofList, ← hs, append_assoc, hu, lowerFrom_ascii fun c hc => (hword c hc).1,
    map_eq_self fun c hc => (hword c hc).2]
  exact ⟨u, _, by rw [append_assoc]⟩

end Text

namespace Wheel

variable {p : Path} {site : Site} {metadata : String} {w : World}

/-! ## What passes -/

/-- What the checks of a package ask for. -/
structure Passes (names : List String) (metadata : String) : Prop where
  /-- There is a file of metadata. -/
  info : ∃ n ∈ names, contains n ".dist-info/" ∧ endsWith n "/METADATA"
  components : ∃ n ∈ names, contains n "components/"
  pipelines : ∃ n ∈ names, contains n "pipelines/"
  packages : ∃ n ∈ names, endsWith n "__init__.py"
  /-- What is asked of metadata that are not empty. -/
  metadata : metadata ≠ "" → contains metadata "Name: kfp-components" ∧
    (∃ l ∈ split "\n" metadata, startsWith l "Version:") ∧
    contains metadata "Requires-Python:"

lemma holding_eq_nil_iff {part : String} :
    holding part names = [] ↔ ¬ ∃ n ∈ names, contains n part := by
  simp [holding]

lemma errors_append (a b : Findings) :
    (a.append b).errors = [] ↔ a.errors = [] ∧ b.errors = [] := append_eq_nil_iff

lemma errors_when (condition : Bool) (message error : String) :
    (Findings.when condition message error).errors = [] ↔ condition := by
  cases condition <;> simp [Findings.when]

lemma errors_checkFolder (label : String) (names : List String) :
    (checkFolder label names).errors = [] ↔ ∃ n ∈ names, contains n (label ++ "/") := by
  rw [checkFolder, errors_when, Bool.not_eq_true', isEmpty_eq_false_iff, Ne, holding_eq_nil_iff,
    not_not]

lemma errors_checkInfo (names : List String) :
    (missingMetadata names).errors = [] ∧ (checkInfo names).errors = [] ↔
      ∃ n ∈ names, contains n ".dist-info/" ∧ endsWith n "/METADATA" := by
  have hfile : (metadataName? names).isSome ↔
      ∃ n ∈ names, contains n ".dist-info/" ∧ endsWith n "/METADATA" := by
    simp [metadataName?, find?_isSome, holding, infoPart]
  rw [← hfile]
  rcases hheld : holding infoPart names with _ | ⟨n, ns⟩
  · simp [checkInfo, metadataName?, hheld]
  · have hfound : (checkInfo names).errors = [] := by simp [checkInfo, hheld]
    rcases hname : metadataName? names with _ | m
    · simp [missingMetadata, hheld, hname]
    · simp [missingMetadata, hname, hfound]

lemma errors_checkPackages (names : List String) :
    (checkPackages names).errors = [] ↔ ∃ n ∈ names, endsWith n "__init__.py" := by
  rw [checkPackages]
  split
  · next hnone => simpa using hnone
  · next hsome => simpa using hsome

lemma errors_checkModules (names : List String) : (checkModules names).errors = [] := by
  rw [checkModules]
  split <;> rfl

lemma errors_checkVersion (metadata : String) : (checkVersion metadata).errors = [] ↔
      ∃ l ∈ split "\n" metadata, startsWith l "Version:" := by
  rw [← find?_isSome, checkVersion]
  split <;> simp_all

/-- Metadata that name the package mention the library, whatever they require. -/
lemma mentions_library_of_name (h : contains metadata "Name: kfp-components") :
    contains (lower metadata) "kfp" := by
  apply contains_lower (by simp)
  obtain ⟨a, b, rfl⟩ := contains_iff.mp h
  refine contains_iff.mpr ⟨a ++ "Name: ", "-components" ++ b, ?_⟩
  apply String.toList_inj.mp
  simp

lemma errors_checkMetadata (metadata : String) :
    (checkMetadata metadata).errors = [] ↔ (metadata ≠ "" →
      contains metadata "Name: kfp-components" ∧
      (∃ l ∈ split "\n" metadata, startsWith l "Version:") ∧
      contains metadata "Requires-Python:") := by
  rw [checkMetadata]
  split
  · next hempty => simp [hempty]
  · next hfull =>
    have hname : contains metadata s!"Name: {packageName}" =
        contains metadata "Name: kfp-components" := rfl
    simp only [errors_append, checkPackageName, checkRequirement, checkDependency, errors_when,
      errors_checkVersion, hname]
    constructor
    · rintro ⟨⟨⟨h, hversion⟩, hpython⟩, -⟩ -
      exact ⟨h, hversion, hpython⟩
    · intro h
      obtain ⟨h, hversion, hpython⟩ := h hfull
      exact ⟨⟨⟨h, hversion⟩, hpython⟩, mentions_library_of_name h⟩

lemma errors_check_iff (names : List String) (metadata : String) :
    (check names metadata).errors = [] ↔ Passes names metadata := by
  simp only [check, checkNames, checkFolders, errors_append, errors_checkFolder,
    errors_checkPackages, errors_checkModules, errors_checkMetadata, and_true]
  have hinfo := errors_checkInfo names
  constructor
  · rintro ⟨⟨hmissing, ⟨hfound, hcomponents, hpipelines⟩, hpackages⟩, hmetadata⟩
    exact ⟨hinfo.mp ⟨hmissing, hfound⟩, hcomponents, hpipelines, hpackages, hmetadata⟩
  · intro h
    obtain ⟨hmissing, hfound⟩ := hinfo.mpr h.info
    exact ⟨⟨hmissing, ⟨hfound, h.components, h.pipelines⟩, h.packages⟩, h.metadata⟩

example : (check [] "").errors ≠ [] := by decide +kernel

/-! ## What is promised -/

/-- Whether a line of metadata requires the library: its name, in whatever case, stands behind the
label and blanks and does not go on. -/
def RequiresLibrary (line : String) : Prop :=
  ∃ blanks name rest : List Char, line.toList = "Requires-Dist:".toList ++ blanks ++ name ++ rest ∧
    (∀ c ∈ blanks, c = ' ') ∧ name.map Char.toLower = "kfp".toList ∧
    ∀ c ∈ rest.head?, ¬ (c.isAlphanum ∨ c ∈ ['.', '_', '-'])

/-- What a package of the catalogue has to hold. -/
structure Promised (names : List String) (metadata : String) : Prop where
  components : ∃ n ∈ names, startsWith n "kfp_components/components/"
  pipelines : ∃ n ∈ names, startsWith n "kfp_components/pipelines/"
  name : "Name: kfp-components" ∈ split "\n" metadata
  version : ∃ l ∈ split "\n" metadata, startsWith l "Version:"
  python : ∃ l ∈ split "\n" metadata, startsWith l "Requires-Python:"
  library : ∃ l ∈ split "\n" metadata, RequiresLibrary l

lemma contains_of_startsWith {n folder part : String} (hn : startsWith n folder)
    (hpart : contains folder part) : contains n part := by
  obtain ⟨r, rfl⟩ := startsWith_iff.mp hn
  obtain ⟨a, b, rfl⟩ := contains_iff.mp hpart
  exact contains_iff.mpr ⟨a, b ++ r, String.append_assoc⟩

lemma passes_of_promised (h : Promised names metadata)
    (hinfo : ∃ n ∈ names, contains n ".dist-info/" ∧ endsWith n "/METADATA")
    (hpackages : ∃ n ∈ names, endsWith n "__init__.py") : Passes names metadata where
  info := hinfo
  components := h.components.imp fun n hn => ⟨hn.1, contains_of_startsWith hn.2 (by decide)⟩
  pipelines := h.pipelines.imp fun n hn => ⟨hn.1, contains_of_startsWith hn.2 (by decide)⟩
  packages := hpackages
  metadata := by
    intro _
    obtain ⟨l, hl, hpython⟩ := h.python
    exact ⟨contains_of_line h.name (startsWith_iff.mpr ⟨"", by simp⟩), h.version,
      contains_of_line hl hpython⟩

/-- Of what is promised, a package that passes tells its version; the rest is not looked at. -/
lemma Passes.promised_iff (h : Passes names metadata) : Promised names metadata ↔
      (∃ n ∈ names, startsWith n "kfp_components/components/") ∧
      (∃ n ∈ names, startsWith n "kfp_components/pipelines/") ∧
      "Name: kfp-components" ∈ split "\n" metadata ∧
      (∃ l ∈ split "\n" metadata, startsWith l "Requires-Python:") ∧
      ∃ l ∈ split "\n" metadata, RequiresLibrary l := by
  constructor
  · intro hp
    exact ⟨hp.components, hp.pipelines, hp.name, hp.python, hp.library⟩
  · rintro ⟨hcomponents, hpipelines, hname, hpython, hlibrary⟩
    have hfull : metadata ≠ "" := by
      rintro rfl
      revert hname
      decide
    exact ⟨hcomponents, hpipelines, hname, (h.metadata hfull).2.1, hpython, hlibrary⟩

/-! ## Validation of the file at a path -/

/-- What a package is judged by: what is listed in the archive at a path and the text of its
metadata. -/
def Reads (site : Site) (t : Tree) (p : Path) (a : Archive) (metadata : String) : Prop :=
  ∃ c, t.read (site.home.join p).names = .ok c ∧ Archive.ofBytes? c.toBytes = some a ∧
    metadataText a = .ok metadata

lemma exists?_of_read {t : Tree} {l : Location} {c : Content} (h : t.read l = .ok c) :
    t.exists? l := by
  rw [Tree.read] at h
  obtain ⟨e, he, hfile⟩ := except_bind_eq_ok.mp h
  cases e with
  | file d => simp [Tree.exists?, Tree.isFile, he]
  | folder => cases hfile

lemma validate_of_read {c : Content} (h : w.tree.read (site.home.join p).names = .ok c) :
    validate p site w = (.ok (judge p c.toBytes), w) := by
  simp only [validate, bind_apply, Run.exists?_apply, exists?_of_read h, Bool.not_true,
    Bool.false_eq_true, if_false, Run.attempt_apply, Run.content_apply, h, Run.pure_apply]

lemma validate_of_read_error {e : Fault} (h : w.tree.read (site.home.join p).names = .error e) :
    ∃ lines, validate p site w = (.ok (false, lines), w) := by
  simp only [validate, bind_apply, Run.exists?_apply]
  cases w.tree.exists? (site.home.join p).names with
  | false => exact ⟨_, rfl⟩
  | true =>
    simp only [Bool.not_true, Bool.false_eq_true, if_false, bind_apply, Run.attempt_apply,
      Run.content_apply, h]
    exact ⟨_, rfl⟩

lemma judge_eq_verdict {bytes : List UInt8} (ha : Archive.ofBytes? bytes = some a)
    (hmetadata : metadataText a = .ok metadata) :
    judge p bytes = verdict p.name a.bytes.length a.names metadata := by
  unfold judge
  split
  · next hnone => cases ha.symm.trans hnone
  · next b hb =>
    cases ha.symm.trans hb
    split
    · next m hm => cases hmetadata.symm.trans hm; rfl
    · next hm => cases hmetadata.symm.trans hm
    · next hm => cases hmetadata.symm.trans hm

lemma exists_of_judge {bytes : List UInt8} (h : (judge p bytes).1) :
    ∃ a metadata, Archive.ofBytes? bytes = some a ∧ metadataText a = .ok metadata := by
  unfold judge at h
  split at h
  · cases h
  · next a ha =>
    split at h
    · next metadata hmetadata => exact ⟨a, metadata, ha, hmetadata⟩
    · cases h
    · cases h

lemma verdict_fst (name : String) (size : Nat) (names : List String) (metadata : String) :
    (verdict name size names metadata).1 ↔ Passes names metadata := by
  rw [← errors_check_iff, verdict, List.isEmpty_iff]

lemma validate_of_reads (h : Reads site w.tree p a metadata) :
    validate p site w = (.ok (verdict p.name a.bytes.length a.names metadata), w) := by
  obtain ⟨c, hc, ha, hmetadata⟩ := h
  rw [validate_of_read hc, judge_eq_verdict ha hmetadata]

lemma exists_reads_of_validate {lines : List String}
    (h : validate p site w = (.ok (true, lines), w)) :
    ∃ a metadata, Reads site w.tree p a metadata := by
  rcases hc : w.tree.read (site.home.join p).names with e | c
  · obtain ⟨others, hothers⟩ := validate_of_read_error hc
    cases h.symm.trans hothers
  · rw [validate_of_read hc, Prod.mk.injEq, Except.ok.injEq] at h
    obtain ⟨a, metadata, ha, hmetadata⟩ := exists_of_judge (p := p) (by rw [h.1])
    exact ⟨a, metadata, c, hc, ha, hmetadata⟩

lemma Reads.validate_iff (h : Reads site w.tree p a metadata) :
    (∃ lines, validate p site w = (.ok (true, lines), w)) ↔ Passes a.names metadata := by
  rw [validate_of_reads h, ← verdict_fst p.name a.bytes.length]
  constructor
  · rintro ⟨lines, hlines⟩
    rw [Prod.mk.injEq, Except.ok.injEq] at hlines
    rw [hlines.1]
  · intro hok
    exact ⟨(verdict p.name a.bytes.length a.names metadata).2, by rw [← hok]⟩

/-! ## Two packages -/

def packageOf (metadata : String) : List Source :=
  [⟨"kfp_components/components/__init__.py", []⟩, ⟨"kfp_components/pipelines/__init__.py", []⟩,
    ⟨"kfp_components-1.0.dist-info/METADATA", metadata.toUTF8.toList⟩]

def packagePath : Path := ⟨"", ["kfp_components-1.0-py3-none-any.whl"]⟩

def worldOf (sources : List Source) : World :=
  { tree := { files := [(packagePath.names, .bytes (encode sources))] } }

def boundMetadata : String :=
  "Name: kfp-components\nVersion: 1.0\nRequires-Python: >=3.11\nRequires-Dist: kfp>=2.15\n"

def unboundMetadata : String := "Name: kfp-components\nVersion: 1.0\nRequires-Python: >=3.11\n"

def boundPackage : List Source := packageOf boundMetadata

def unboundPackage : List Source := packageOf unboundMetadata

lemma exists_reads_of_encode {sources : List Source}
    (h : (Archive.ofBytes? (encode sources)).map (fun a => (a.names, (metadataText a).toOption)) =
      some (sources.map Source.name, some metadata)) :
    ∃ a, Reads rootSite (worldOf sources).tree packagePath a metadata ∧
      a.names = sources.map Source.name := by
  obtain ⟨a, ha, hread⟩ := Option.map_eq_some_iff.mp h
  rw [Prod.mk.injEq] at hread
  refine ⟨a, ⟨.bytes (encode sources), rfl, ha, ?_⟩, hread.1⟩
  rcases hmetadata : metadataText a with e | m
  · simp [hmetadata, Except.toOption] at hread
  · simpa [hmetadata, Except.toOption] using hread.2

set_option maxRecDepth 100000 in
lemma exists_reads_boundPackage :
    ∃ a, Reads rootSite (worldOf boundPackage).tree packagePath a boundMetadata ∧
      a.names = boundPackage.map Source.name :=
  exists_reads_of_encode (by decide +kernel)

set_option maxRecDepth 100000 in
lemma exists_reads_unboundPackage :
    ∃ a, Reads rootSite (worldOf unboundPackage).tree packagePath a unboundMetadata ∧
      a.names = unboundPackage.map Source.name :=
  exists_reads_of_encode (by decide +kernel)

lemma RequiresLibrary.startsWith {line : String} (h : RequiresLibrary line) :
    startsWith line "Requires-Dist:" := by
  obtain ⟨blanks, name, rest, hline, -⟩ := h
  rw [Text.startsWith, isPrefixOf_iff_prefix, hline, append_assoc, append_assoc]
  exact prefix_append _ _

lemma promised_boundPackage : Promised (boundPackage.map Source.name) boundMetadata where
  components := by decide +kernel
  pipelines := by decide +kernel
  name := by decide +kernel
  version := by decide +kernel
  python := by decide +kernel
  library := by
    refine ⟨"Requires-Dist: kfp>=2.15", by decide +kernel, [' '], "kfp".toList, ">=2.15".toList,
      by simp, by simp, by decide, ?_⟩
    intro c hc
    obtain rfl : '>' = c := by simpa using hc
    decide

end Wheel

end AssetCatalog
