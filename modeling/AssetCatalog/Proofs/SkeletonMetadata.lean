import AssetCatalog.Metadata.Validation
import AssetCatalog.Proofs.CompileSelection
import AssetCatalog.Proofs.SkeletonScalars
import AssetCatalog.Proofs.YamlLines

/-!
# New metadata read back

They pass the check exactly if no word of the name or the tags is read as something else, and their
year has four digits.
-/

namespace AssetCatalog

open Yaml Token.Lexer List Metadata Node Token Value

variable {site : Site}

namespace Skeleton

variable (name : String) (tags : List String) (verified : String)

/-! ## Lines and tokens -/

lemma toList_ofLines (ls : List String) : (ofLines ls).toList = textOf (ls.map String.toList) := by
  induction ls with
  | nil => rfl
  | cons l ls ih =>
    have hjoin : ofLines (l :: ls) = l ++ "\n" ++ ofLines ls := by simp [ofLines]
    rw [hjoin, String.toList_append, ih]
    simp

def headLines (t : Draft) : List (List Char) :=
  [ keyLine 0 "name" (' ' :: t.name.toList),
    keyLine 0 "stability" (' ' :: ("alpha".toList ++ (List.replicate (1 + 1) ' ' ++
      '#' :: (" New ".toList ++ t.type.toList ++ " without proven track record".toList)))),
    keyLine 0 "dependencies" [],
    keyLine 2 "kubeflow" [],
    entryLine 4 (keyLine 0 "name" (' ' :: "Pipelines".toList)),
    keyLine 6 "version" (' ' :: '\'' :: (">=2.15.2".toList ++ ['\''])) ]

def dependencyNotes (t : Draft) : List (List Char) :=
  [ "  # external_services:  # Add if ".toList ++ t.type.toList ++ " uses external services".toList,
    "  #   - name: Example Service".toList,
    "  #     version: \">=1.0.0\"".toList ]

def tagNote : List Char := "  # Add more relevant tags here".toList

def closingNotes : List (List Char) :=
  [ "# links:  # Add relevant links".toList,
    "#   documentation: https://your-docs-url.com".toList,
    "#   issue_tracker: https://github.com/kubeflow/pipelines-components/issues".toList,
    [] ]

def tailLines : List (List Char) :=
  keyLine 0 "tags" [] :: (tags.map (fun tag => entryLine 2 tag.toList) ++
    tagNote :: keyLine 0 "lastVerified" (' ' :: verified.toList) :: closingNotes)

lemma map_toList_metadataLines (t : Draft) (now : Moment) :
    (metadataLines t now).map String.toList = ['-', '-', '-'] ::
      (headLines t ++ (dependencyNotes t ++ tailLines t.tags (stamp now))) := by
  have hname : s!"name: {t.name}".toList = keyLine 0 "name" (' ' :: t.name.toList) := by
    simp [keyLine, toString]
  have hstability : s!"stability: alpha  # New {t.type} without proven track record".toList =
      keyLine 0 "stability" (' ' :: ("alpha".toList ++ (List.replicate (1 + 1) ' ' ++
        '#' :: (" New ".toList ++ t.type.toList ++ " without proven track record".toList)))) := by
    simp [keyLine, toString]
  have hservices : s!"  # external_services:  # Add if {t.type} uses external services".toList =
      "  # external_services:  # Add if ".toList ++ t.type.toList ++ " uses external services".toList := by
    simp [toString]
  have htag : (t.tags.map fun tag => s!"  - {tag}").map String.toList =
      t.tags.map fun tag => entryLine 2 tag.toList := by
    simp [entryLine, toString]
  have hdate : ("lastVerified: " ++ stamp now).toList =
      keyLine 0 "lastVerified" (' ' :: (stamp now).toList) := by
    simp [keyLine]
  rw [metadataLines, map_append, map_append, htag]
  simp only [map_cons, map_nil, hname, hstability, hservices, hdate, append_assoc]
  rfl

def headTokens : List Token :=
  [ documentStart, blockMappingStart,
    key, scalar "name" true, value, scalar name true,
    key, scalar "stability" true, value, scalar "alpha" true,
    key, scalar "dependencies" true, value, blockMappingStart,
    key, scalar "kubeflow" true, value, blockSequenceStart,
    blockEntry, blockMappingStart,
    key, scalar "name" true, value, scalar "Pipelines" true,
    key, scalar "version" true, value, scalar ">=2.15.2" false ]

variable {t : Draft} {now : Moment} {lines : List (List Char)} {s : Token.Lexer}

lemma leads_headLines (htype : t.type.toList.all isInline) (hname : isPlain t.name.toList)
    (h : Before [documentStart] {} (headLines t ++ lines) s) :
    ∃ s', Leads 17 s s' ∧ Before (headTokens t.name) ⟨6, [4, 2, 0, -1]⟩ lines s' := by
  have hnote : (" New ".toList ++ t.type.toList ++ " without proven track record".toList).all isInline := by
    rw [all_append, all_append, htype]
    decide
  obtain ⟨s₁, hleads₁, h⟩ := (h.at_key (by decide)).key_text _ (by decide) (by decide) (by decide)
    (opens_append hname _)
  obtain ⟨s₂, hleads₂, h⟩ := h.scalar_line (by decide) hname (by rfl)
  obtain ⟨s₃, hleads₃, h⟩ := (h.at_key (by decide)).key_text _ (by decide) (by decide) (by decide) rfl
  obtain ⟨s₄, hleads₄, h⟩ := h.scalar_comment (w := "alpha") (by decide) (by decide) hnote
  obtain ⟨s₅, hleads₅, h⟩ := h.key_open (by decide) (by decide) (by decide)
  obtain ⟨s₆, hleads₆, h⟩ := h.key_open (by decide) (by decide) (by decide)
  obtain ⟨s₇, hleads₇, h⟩ := h.entry_text rfl
  obtain ⟨s₈, hleads₈, h⟩ := h.key_text "name" (by decide) (by decide) (by decide) rfl
  obtain ⟨s₉, hleads₉, h⟩ := h.scalar_line (w := "Pipelines") (by decide) (by decide) (by decide)
  obtain ⟨s₁₀, hleads₁₀, h⟩ := (h.at_key (by decide)).key_text _ (by decide) (by decide) (by decide) rfl
  obtain ⟨s₁₁, hleads₁₁, h⟩ := h.quoted (by decide) (by decide)
  have hfront := (((hleads₁.trans hleads₂).trans hleads₃).trans hleads₄).trans hleads₅
  have hback := ((((hleads₆.trans hleads₇).trans hleads₈).trans hleads₉).trans hleads₁₀).trans hleads₁₁
  exact ⟨s₁₁, hfront.trans hback, h⟩

def tailTokens : List Token :=
  [ blockEnd, blockEnd, blockEnd,
    key, scalar "tags" true, value, blockSequenceStart ] ++ entryTokens tags ++
  [ blockEnd,
    key, scalar "lastVerified" true, value, scalar verified true,
    blockEnd, streamEnd ]

lemma run_tailLines {ts : List Token} {tag verified : String} {tags : List String}
    (htags : ∀ w ∈ tag :: tags, isPlain w.toList) (hverified : isPlain verified.toList)
    (h : Before ts ⟨6, [4, 2, 0, -1]⟩ (tailLines (tag :: tags) verified) s) (fuel : Nat) :
    (run (fuel + 1 + (3 + (2 * (tag :: tags).length + 2))) s).toList = ts ++ tailTokens (tag :: tags) verified := by
  obtain ⟨s₁, hleads₁, h⟩ := h.key_open (by decide) (by decide) (by decide)
  have hnote : endsScalar (2 : Nat) tagNote := by decide
  obtain ⟨s₂, hleads₂, h⟩ := h.entries (by decide) (by decide) htags hnote
  have hdate : Before _ _ (keyLine 0 "lastVerified" (' ' :: verified.toList) :: closingNotes) s₂ :=
    Before.skip_idle (by decide : ∀ line ∈ [tagNote], isIdle line) h
  obtain ⟨s₃, hleads₃, h⟩ := (hdate.at_key (by decide)).key_text _ (by decide) (by decide) (by decide)
    (opens_append hverified _)
  obtain ⟨s₄, hleads₄, h⟩ := h.scalar_line (by decide) hverified (by decide)
  have hend := h closingNotes [] 0 [] (by decide) (by decide) (by decide) (by decide)
  have hdated : Leads 3 s₂ s₄ := hleads₃.trans hleads₄
  rw [(hleads₁.trans hleads₂).trans hdated, hend.stop fuel]
  simp only [tailTokens, append_assoc]
  rfl

def metadataNode : Node :=
  .record
    [ ("name", .word name),
      ("stability", .word "alpha"),
      ("dependencies", .record [("kubeflow", .sequence .implied
        [.record [("name", .word "Pipelines"), ("version", .scalar .implied ">=2.15.2" false)]])]),
      ("tags", .sequence .implied (tags.map .word)),
      ("lastVerified", .word verified) ]

lemma itemTokens_words (words : List String) : itemTokens (words.map .word) = entryTokens words := by
  induction words with
  | nil => rfl
  | cons w words ih => 
    rw [map_cons, itemTokens, ih]
    rfl

lemma blockTokens_metadataNode :
    documentStart :: ((metadataNode name tags verified).blockTokens ++ [streamEnd]) =
      headTokens name ++ tailTokens tags verified := by
  have htags := itemTokens_words tags
  simp [metadataNode, record, word, blockTokens, pairTokens, itemTokens, headTokens, tailTokens, ← htags] 

lemma all_metadataLines (htype : t.type.toList.all isText)
    (hname : t.name.toList.all isText) (htags : ∀ tag ∈ t.tags, tag.toList.all isText)
    (hnow : (stamp now).toList.all isText) :
    (ofLines (metadataLines t now)).toList.all (fun c => isAllowed c && c != '\r') := by
  have hallowed {w : List Char} (hw : w.all isText) :
      w.all (fun c => isAllowed c && c != '\r') := by
    rw [all_eq_true] at hw ⊢
    intro c hc
    have htext := hw c hc
    have hne : c ≠ '\r' := by
      rintro rfl
      exact absurd htext (by decide)
    rw [isText, Bool.and_eq_true] at htext
    simp [htext.2, hne]
  have hentries : (t.tags.map fun tag => entryLine 2 tag.toList).all
      (·.all fun c => isAllowed c && c != '\r') := by
    rw [all_map, all_eq_true]
    intro tag htag
    have htag' := hallowed (htags tag htag)
    simp only [Function.comp_apply, entryLine, all_append, all_cons, htag']
    rfl
  rw [toList_ofLines, map_toList_metadataLines, all_textOf (by decide)]
  simp only [headLines, dependencyNotes, tailLines, keyLine, all_append, all_cons, hentries,
    hallowed htype, hallowed hname, hallowed hnow]
  decide

lemma ofText_metadataLines (htype : t.type.toList.all isText) (hname : IsHyphenated t.name)
    (htags : ∀ tag ∈ t.tags, IsHyphenated tag) (hnow : IsClock now) :
    ofText (ofLines (metadataLines t now)) = documentStart ::
      ((metadataNode t.name t.tags (stamp now)).blockTokens ++ [streamEnd]) := by
  have hallowed : (ofLines (metadataLines t now)).toList.all isAllowed := by
    have hall := all_metadataLines htype hname.all_isText (fun tag h => (htags tag h).all_isText)
      (isText_stamp hnow)
    simp only [all_eq_true, Bool.and_eq_true] at hall ⊢
    exact fun c hc => (hall c hc).1
  have hinline : t.type.toList.all isInline := by
    simp only [all_eq_true, isText, Bool.and_eq_true] at htype ⊢
    exact fun c hc => (htype c hc).1.1
  obtain ⟨s₁, hleads₁, hstart⟩ := leads_documentStart
    (headLines t ++ (dependencyNotes t ++ tailLines t.tags (stamp now)))
  obtain ⟨s₂, hleads₂, hhead⟩ := leads_headLines hinline hname.isPlain hstart
  have hnotes : ∀ line ∈ dependencyNotes t, isIdle line := by
    have hservices : isIdle ("  # external_services:  # Add if ".toList ++ t.type.toList ++
        " uses external services".toList) := by
      refine (isIdle_comment 2 (" external_services:  # Add if ".toList ++ t.type.toList ++
        " uses external services".toList)).trans ?_
      rw [all_append, all_append, hinline]
      decide
    rw [dependencyNotes, forall_mem_cons]
    exact ⟨hservices, by decide⟩
  have htail := run_tailLines (fun tag h => (htags tag h).isPlain) (isPlain_stamp hnow) (hhead.skip_idle hnotes)
  have hlength : t.tags.length ≤ 2 := by
    rw [Draft.tags, length_cons]
    split <;> decide
  have hlong : (textOf closingNotes).length ≤ (ofLines (metadataLines t now)).toList.length := by
    rw [toList_ofLines, map_toList_metadataLines]
    refine length_textOf_le_of_suffix ⟨['-', '-', '-'] :: (headLines t ++ (dependencyNotes t ++
      keyLine 0 "tags" [] :: (t.tags.map (fun tag => entryLine 2 tag.toList) ++
        [tagNote, keyLine 0 "lastVerified" (' ' :: (stamp now).toList)]))), ?_⟩
    simp [tailLines]
  have hmany : 40 ≤ (textOf closingNotes).length := by decide +kernel
  obtain ⟨fuel, hfuel⟩ : ∃ fuel, (ofLines (metadataLines t now)).toList.length + 2 =
      fuel + 1 + (3 + (2 * t.tags.length + 2)) + (17 + 1) :=
    ⟨(ofLines (metadataLines t now)).toList.length + 2 - (24 + 2 * t.tags.length), by omega⟩
  have hpeek : (Cursor.ofList (ofLines (metadataLines t now)).toList).peek.toNat ≠ 0xfeff := by
    rw [toList_ofLines, map_toList_metadataLines]
    exact (by decide : '-'.toNat ≠ 0xfeff)
  simp only [ofText, hallowed, if_true, if_neg hpeek]
  rw [hfuel, toList_ofLines, map_toList_metadataLines, blockTokens_metadataNode]
  exact (congrArg Array.toList (hleads₁.trans hleads₂ _)).trans (htail fuel)

/-! ## The value -/

def metadataEntries (name : Value) (tags : List Value) (verified : Value) : List (Value × Value) :=
  [ (.text "name", name),
    (.text "stability", .text "alpha"),
    (.text "dependencies", .map [(.text "kubeflow", .list
      [.map [(.text "name", .text "Pipelines"), (.text "version", .text ">=2.15.2")]])]),
    (.text "tags", .list tags),
    (.text "lastVerified", verified) ]

def metadataForm (name : Value) (tags : List Value) (verified : Value) : Form :=
  let text (s : String) : Form := .leaf (.ok (.text s))
  .map
    [ (text "name", .leaf (.ok name)),
      (text "stability", text "alpha"),
      (text "dependencies", .map [(text "kubeflow", .list
        [.map [(text "name", text "Pipelines"), (text "version", text ">=2.15.2")]])]),
      (text "tags", .list (tags.map fun v => .leaf (.ok v))),
      (text "lastVerified", .leaf (.ok verified)) ]

lemma form_metadataNode {name verified : String} {tags : List String} {date : Value}
    (hname : isWordText name) (htags : ∀ tag ∈ tags, isWordText tag)
    (hdate : (word verified).form = .leaf (.ok date)) :
    (metadataNode name tags verified).form = metadataForm (wordValue name) (tags.map wordValue) date := by
  have hversion : (scalar .implied ">=2.15.2" false).form = .leaf (.ok (.text ">=2.15.2")) := rfl
  have halpha : (word "alpha").form = .leaf (.ok (.text "alpha")) := form_of_isWordText (by decide)
  have hpipelines : (word "Pipelines").form = .leaf (.ok (.text "Pipelines")) :=
    form_of_isWordText (by decide)
  rw [metadataNode,
    form_record ["name", "stability", "dependencies", "tags", "lastVerified"] rfl (by decide)]
  simp only [map_cons, map_nil, form_sequence, forms_words htags, hdate,
    form_of_isWordText hname, halpha]
  rw [form_record ["kubeflow"] rfl (by decide)]
  simp only [map_cons, map_nil, form_sequence, forms]
  rw [form_record ["name", "version"] rfl (by decide)]
  simp only [map_cons, map_nil, hversion, hpipelines, metadataForm, map_map]
  rfl

lemma value_metadataForm (name : Value) (tags : List Value) (verified : Value) :
    (metadataForm name tags verified).value = .ok (.map (metadataEntries name tags verified)) := by
  have hdepth : (metadataForm name tags verified).depth = 4 := by
    simp [metadataForm, Form.depth, Form.depthOfPairs, Form.depthOfList, Form.depthOfList_leaves]
  have hcheck : (metadataForm name tags verified).check = .ok () := by
    rw [Form.check, hdepth]
    simp [metadataForm, Form.fillAll, Form.fill, Form.meetEntry, Form.meet, Form.isKey, hashable,
      Form.mapM_meet_leaves, bind, Except.bind, pure, Except.pure, Except.map]
  rw [Form.value, hcheck, except_ok_bind]
  simp [metadataForm, Form.content, Form.entries, Form.contents_leaves, metadataEntries, put,
    text_beq_text, Form.contents]

lemma isBare_metadataNode :
    isBare depthLimit (metadataNode name tags verified) := by
  have hwords (d : Nat) : areBare d (tags.map .word) := by
    induction tags with
    | nil => rfl
    | cons tag tags ih =>
      rw [map_cons, areBare, ih, Bool.and_true]
      cases d <;> rfl
  simp only [metadataNode, record, word, depthLimit, map_cons, map_nil, isBare,
    areBare, haveBare, hwords]
  rfl

/-! ## The check -/

lemma isValid_metadataEntries_iff {name verified : Value} {tags : List Value} :
    Metadata.IsValid (metadataEntries name tags verified) ↔
      (∃ s, name = .text s) ∧ ∃ ts : List String, tags = ts.map .text := by
  constructor
  · intro h
    obtain ⟨s, hs⟩ := h.name
    obtain ⟨ts, hts⟩ := h.tags (.list tags) (by simp [metadataEntries])
    exact ⟨⟨s, by simpa [metadataEntries, named_cons] using hs⟩, ts, by simpa using hts⟩
  · rintro ⟨⟨s, rfl⟩, ts, rfl⟩
    have hdependency : Metadata.IsDependency (.map [(.text "name", .text "Pipelines"),
        (.text "version", .text ">=2.15.2")]) :=
      ⟨_, rfl, by simp [named_cons], ">=2.15.2", by simp [named_cons],
        ">=", by decide, "2.15.2", by decide, by decide⟩
    have hdependencies : Metadata.IsDependencies [(.text "kubeflow", .list [.map [(.text "name",
        .text "Pipelines"), (.text "version", .text ">=2.15.2")]])] [.map [(.text "name",
        .text "Pipelines"), (.text "version", .text ">=2.15.2")]] [] :=
      ⟨.inl (List.Perm.refl _), by simp [named_cons], .inr ⟨.inl (by simp [named_cons]), rfl⟩,
        ⟨_, mem_singleton_self _, by simp [named_cons]⟩, by simpa using hdependency⟩
    refine ⟨?_, ⟨s, by simp [metadataEntries, named_cons]⟩,
      ⟨"alpha", by decide, by simp [metadataEntries, named_cons]⟩,
      ⟨_, _, _, by simp [metadataEntries, named_cons], hdependencies⟩, ?_, ?_, ?_⟩
    · simp [metadataEntries]
    · intro v hv
      obtain rfl : v = .list (ts.map .text) := by simpa [metadataEntries] using hv
      exact ⟨ts, rfl⟩
    · intro v hv
      simp [metadataEntries] at hv
    · intro v hv
      simp [metadataEntries] at hv

lemma checkVerified_stampValue (hnow : IsClock now) (hsite : site.now = now)
    (hyear : 1000 ≤ now.date.year) (w : World) :
    checkVerified (stampValue now) site w = (.ok true, w) := by
  have hinstant : now.instant - ({ now with micro := 0 } : Moment).instant = now.micro := by
    simp only [Moment.instant, Moment.localTime]
    omega
  have hdays : daysBetween ({ now with micro := 0 } : Moment).instant now.instant = 0 := by
    have hmicro := hnow.micro
    rw [daysBetween, hinstant]
    refine Int.fdiv_eq_zero_of_lt (by omega) ?_
    simp only [Moment.dayLength, Moment.secondLength]
    omega
  have hoffset : now.offset.isNone = false := by rw [hnow.offset]; rfl
  rw [stampValue, if_pos hyear]
  simp [checkVerified, hoffset, hsite, hdays]

lemma checkVerified_stampValue_of_short (site : Site)
    (hyear : ¬ 1000 ≤ now.date.year) (w : World) :
    ∃ w', checkVerified (stampValue now) site w = (.ok false, w') := by
  rw [stampValue, if_neg hyear]
  have hplain : (Value.text (stamp now)).plainText = .ok (stamp now) := rfl
  simp [checkVerified, hplain]

lemma checkFile_metadataEntries_iff {w : World} {p : Path} {text : String}
    {name : Value} {tags : List Value} (hnow : IsClock now) (hsite : site.now = now)
    (hfile : w.tree.find (site.home.join p).names = .ok (.file (.text text))) (hline : '\r' ∉ text.toList)
    (hload : load text = .ok (.map (metadataEntries name tags (stampValue now)))) :
    (checkFile p site w).1 = .ok () ↔ 1000 ≤ now.date.year ∧ (∃ s, name = .text s) ∧
      ∃ ts : List String, tags = ts.map .text := by
  have hisFile : Run.isFile p site w = (.ok true, w) := by
    simp [Run.isFile, Tree.isFile, hfile]
  have hread : w.tree.read (site.home.join p).names = .ok (.text text) := by
    rw [Tree.read, hfile]
    rfl
  have hvalue : loadYaml p site w =
      (.ok (.map (metadataEntries name tags (stampValue now))), w) := by
    rw [loadYaml_apply, valueAt, hread]
    simp [Content.lineText, Text.unifyNewlines_eq_self hline, hload]
  have hmentions : (Value.map (metadataEntries name tags (stampValue now))).mentions "lastVerified" =
      .ok true := by
    simp [mentions, metadataEntries, named_cons, pure, Except.pure]
  have hverified : (Value.map (metadataEntries name tags (stampValue now))).getOrNull "lastVerified" =
      .ok (stampValue now) := by
    simp [metadataEntries, named_cons]
  rw [← isValid_metadataEntries_iff]
  by_cases hyear : 1000 ≤ now.date.year
  · have hcheck := checkVerified_stampValue hnow hsite hyear w
    have hresult : (checkFile p site w).1 =
        checkSchema (.map (metadataEntries name tags (stampValue now))) := by
      simp [checkFile, hisFile, hvalue, hmentions, hverified, hcheck]
    rw [hresult]
    exact ⟨fun h => ⟨hyear, isValid_of_checkSchema h⟩, fun h => checkSchema_of_isValid h.2⟩
  · obtain ⟨w', hcheck⟩ := checkVerified_stampValue_of_short site hyear w
    have hresult : (checkFile p site w).1 ≠ .ok () := by
      simp [checkFile, hisFile, hvalue, hmentions, hverified, hcheck]
    exact ⟨fun h => absurd h hresult, fun h => absurd h.1 hyear⟩

/-! ## Words that are no texts -/

def otherWords : List String :=
  ["yes", "Yes", "YES", "true", "True", "TRUE", "on", "On", "ON", "no", "No", "NO", "false", "False", "FALSE",
    "off", "Off", "OFF", "null", "Null", "NULL"]

lemma wordValue_of_mem {s : String} (hs : s ∈ otherWords) (u : String) : wordValue s ≠ .text u := by
  fin_cases hs <;> simp [wordValue]

lemma wordValue_of_notMem {s : String} (hs : s ∉ otherWords) : wordValue s = .text s := by
  simp only [otherWords, mem_cons, not_mem_nil, or_false, not_or] at hs
  simp [wordValue, hs]

lemma exists_wordValue_eq_text_iff {s : String} : (∃ u, wordValue s = .text u) ↔ s ∉ otherWords := by
  constructor
  · rintro ⟨u, hu⟩ hs
    exact wordValue_of_mem hs u hu
  · exact fun hs => ⟨s, wordValue_of_notMem hs⟩

lemma map_wordValue_of_notMem {words : List String} (h : ∀ word ∈ words, word ∉ otherWords) :
    words.map wordValue = words.map .text :=
  map_congr_left fun word hword => wordValue_of_notMem (h word hword)

lemma exists_map_wordValue_eq_iff {words : List String} :
    (∃ ts : List String, words.map wordValue = ts.map .text) ↔ ∀ word ∈ words, word ∉ otherWords := by
  constructor
  · rintro ⟨ts, hts⟩ word hword
    have hmem : wordValue word ∈ ts.map Value.text := hts ▸ mem_map_of_mem hword
    obtain ⟨u, -, hu⟩ := mem_map.mp hmem
    exact exists_wordValue_eq_text_iff.mp ⟨u, hu.symm⟩
  · exact fun h => ⟨words, map_wordValue_of_notMem h⟩

/-! ## New metadata -/

lemma exists_coreFiles (htype : t.type = "component" ∨ t.type = "pipeline") (now : Moment) :
    ∃ files, coreFiles t now = .ok files ∧
      files.lookup fileName = some (ofLines (metadataLines t now)) := by
  obtain ⟨lines, hlines⟩ : ∃ lines, moduleLines? t = some lines := by
    rcases htype with h | h <;> simp [moduleLines?, h]
  have hother : ("metadata.yaml" == t.type ++ ".py") = false := by
    rcases htype with h | h <;> rw [h] <;> decide
  refine ⟨_, by rw [coreFiles, hlines]; rfl, ?_⟩
  simp [List.lookup, hother, fileName]

section Draft

variable (htype : t.type = "component" ∨ t.type = "pipeline") (hname : checkName t.name = .ok ())
  (hcategory : checkCategory t.category = .ok ()) (hnow : IsClock now)
include htype hname hcategory hnow

lemma load_metadataLines : load (ofLines (metadataLines t now)) = .ok (.map
    (metadataEntries (wordValue t.name) (t.tags.map wordValue) (stampValue now))) := by
  have hword := isHyphenated_of_checkName hname
  have htags : ∀ tag ∈ t.tags, IsHyphenated tag := fun tag h => isHyphenated_of_mem_tags hcategory h
  have htext : t.type.toList.all isText := by
    rcases htype with h | h <;> rw [h] <;> decide
  rw [load_of_blockTokens (isBare_metadataNode _ _ _) (ofText_metadataLines htext hword htags hnow),
    document, form_metadataNode hword.isWordText (fun tag h => (htags tag h).isWordText)
      (form_stamp hnow), value_metadataForm]

lemma carriageReturn_notMem_metadataLines : '\r' ∉ (ofLines (metadataLines t now)).toList := by
  have htext : t.type.toList.all isText := by
    rcases htype with h | h <;> rw [h] <;> decide
  have hall := all_metadataLines htext (isHyphenated_of_checkName hname).all_isText
    (fun tag h => (isHyphenated_of_mem_tags hcategory h).all_isText) (isText_stamp hnow)
  intro hmem
  have hlast := all_eq_true.mp hall '\r' hmem
  exact absurd hlast (by decide)

lemma checkFile_metadataLines_iff {w : World} {p : Path} (hsite : site.now = now)
    (hfile : w.tree.find (site.home.join p).names =
      .ok (.file (.text (ofLines (metadataLines t now))))) :
    (checkFile p site w).1 = .ok () ↔
      1000 ≤ now.date.year ∧ ∀ word ∈ t.name :: t.tags, word ∉ otherWords := by
  rw [checkFile_metadataEntries_iff hnow hsite hfile
    (carriageReturn_notMem_metadataLines htype hname hcategory hnow)
    (load_metadataLines htype hname hcategory hnow), exists_wordValue_eq_text_iff,
    exists_map_wordValue_eq_iff, forall_mem_cons]

/-- New metadata read back pass the check, with the name and the tags that were given, exactly if the
year has four digits and neither the name nor a tag is a word for another value. -/
theorem checkFile_coreFiles_iff : ∃ files text es, coreFiles t now = .ok files ∧
    files.lookup Metadata.fileName = some text ∧ load text = .ok (.map es) ∧
      ∀ (site : Site) (w : World) (p : Path), site.now = now →
        w.tree.find (site.home.join p).names = .ok (.file (.text text)) →
          ((Metadata.checkFile p site w).1 = .ok () ↔
            1000 ≤ now.date.year ∧ ∀ word ∈ t.name :: t.tags, word ∉ otherWords) ∧
          ((Metadata.checkFile p site w).1 = .ok () →
            Value.named "name" es = some (.text t.name) ∧
              Value.named "tags" es = some (.list (t.tags.map .text))) := by
  obtain ⟨files, hfiles, htext⟩ := exists_coreFiles htype now
  refine ⟨files, _, _, hfiles, htext, load_metadataLines htype hname hcategory hnow, ?_⟩
  intro site w p hsite hfile
  have hcheck := checkFile_metadataLines_iff htype hname hcategory hnow hsite hfile
  refine ⟨hcheck, fun hok => ?_⟩
  obtain ⟨hword, htags⟩ := forall_mem_cons.mp (hcheck.mp hok).2
  rw [wordValue_of_notMem hword, map_wordValue_of_notMem htags]
  simp [metadataEntries, Value.named_cons]

end Draft

def noonSite : Site := { Run.rootSite with now := ⟨⟨2025, 6, 1⟩, 12, 0, 0, 250, some 0⟩ }

def described (text : String) : World where
  tree := { folders := [[]], files := [(["metadata.yaml"], .text text)] }

lemma isClock_noon : IsClock noonSite.now := ⟨by decide, by decide, by decide, by decide, by decide, rfl⟩

lemma find_described (text : String) :
    (described text).tree.find (noonSite.home.join ⟨"", ["metadata.yaml"]⟩).names = .ok (.file (.text text)) := by
  rfl

theorem checkFile_coreFiles_trainer : ∃ files text,
    coreFiles ⟨"pipeline", "data_processing", "trainer"⟩ noonSite.now = .ok files ∧
      files.lookup Metadata.fileName = some text ∧
      (Metadata.checkFile ⟨"", ["metadata.yaml"]⟩ noonSite (described text)).1 = .ok () := by
  obtain ⟨files, text, es, hfiles, htext, -, h⟩ :=
    @checkFile_coreFiles_iff ⟨"pipeline", "data_processing", "trainer"⟩ noonSite.now (.inr rfl)
      (by decide +kernel) (by decide +kernel) isClock_noon
  have hcheck := (h noonSite (described text) ⟨"", ["metadata.yaml"]⟩ rfl (find_described text)).1
  exact ⟨files, text, hfiles, htext, hcheck.mpr (by decide +kernel)⟩

/-- The name `yes` is accepted, and the metadata of an asset of that name are refused. -/
theorem checkFile_yes_refused : checkName "yes" = .ok () ∧ checkCategory "data" = .ok () ∧
    ∃ files text, coreFiles ⟨"component", "data", "yes"⟩ noonSite.now = .ok files ∧
      files.lookup Metadata.fileName = some text ∧
      (Metadata.checkFile ⟨"", ["metadata.yaml"]⟩ noonSite (described text)).1 ≠ .ok () := by
  have hname : checkName "yes" = .ok () := by decide +kernel
  have hcategory : checkCategory "data" = .ok () := by decide +kernel
  obtain ⟨files, hfiles, htext⟩ := @exists_coreFiles ⟨"component", "data", "yes"⟩ (.inl rfl) noonSite.now
  refine ⟨hname, hcategory, files, _, hfiles, htext, fun hok => ?_⟩
  have hcheck := (checkFile_metadataLines_iff (t := ⟨"component", "data", "yes"⟩) (.inl rfl) hname hcategory
    isClock_noon rfl (find_described _)).mp hok
  exact hcheck.2 "yes" mem_cons_self (by decide)

end Skeleton

end AssetCatalog
