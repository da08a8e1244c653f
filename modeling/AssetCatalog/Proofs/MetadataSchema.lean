import AssetCatalog.Metadata.Schema
import AssetCatalog.Proofs.SemanticVersion
import AssetCatalog.Proofs.Value

/-!
# The metadata that the schema takes

What metadata must be like, field by field.
-/

namespace AssetCatalog

open List Text Value

variable {α : Type}

/-- Every element to which one comes through elements with `P` has `Q`. -/
def Reached (P Q : α → Prop) (xs : List α) : Prop :=
  ∀ l x r, xs = l ++ x :: r → (∀ y ∈ l, P y) → Q x

section Reached

variable {P P' Q Q' : α → Prop} {x : α} {xs : List α}

@[simp] lemma reached_nil : Reached P Q [] := by
  intro l x r h
  simp at h

@[simp] lemma reached_of_forall (h : ∀ x, Q x) : Reached P Q xs := fun _ x _ _ _ => h x

lemma reached_cons : Reached P Q (x :: xs) ↔ Q x ∧ (P x → Reached P Q xs) := by
  constructor
  · intro h
    refine ⟨h [] x xs rfl (by simp), fun hx l y r hsplit hl => ?_⟩
    exact h (x :: l) y r (by rw [hsplit]; rfl) (forall_mem_cons.mpr ⟨hx, hl⟩)
  · rintro ⟨hx, hxs⟩ l y r hsplit hl
    rcases l with _ | ⟨z, l⟩
    · cases hsplit
      exact hx
    · cases hsplit
      obtain ⟨hz, hl⟩ := forall_mem_cons.mp hl
      exact hxs hz l y r rfl hl

lemma reached_congr (hP : ∀ x, P x ↔ P' x) (hQ : ∀ x, Q x ↔ Q' x) :
    Reached P Q xs ↔ Reached P' Q' xs := by
  simp only [Reached, hP, hQ]

lemma reached_self_iff : Reached P P xs ↔ ∀ x ∈ xs, P x := by
  induction xs with
  | nil => simp
  | cons x xs ih => rw [reached_cons, forall_mem_cons, ih, and_congr_right fun hx => by
      exact forall_prop_of_true hx]

end Reached

namespace Metadata

variable {xs : List Value} {k : String} {d : Value}
variable {es : List (Value × Value)} {ks : List Value} {name : String} {v : Value}

def IsVersion (s : String) : Prop :=
  ∃ op ∈ ["", ">=", "<=", "=="], ∃ v, s = op ++ v ∧ Version.isSemantic v = true

def IsDependency (d : Value) : Prop :=
  ∃ es, d = .map es ∧ (named "name" es).isSome ∧
    ∃ s, named "version" es = some (.text s) ∧ IsVersion s

/-- Dependencies, with the entries `ks` and `xs` of their two sections. -/
structure IsDependencies (es : List (Value × Value)) (ks xs : List Value) : Prop where
  keys : (es.map (·.1)).Perm [.text "kubeflow"] ∨
    (es.map (·.1)).Perm [.text "kubeflow", .text "external_services"]
  kubeflow : named "kubeflow" es = some (.list ks)
  external : named "external_services" es = some (.list xs) ∨
    (named "external_services" es = none ∨ named "external_services" es = some .null) ∧
      xs = []
  pipelines : ∃ fs, .map fs ∈ ks ∧ named "name" fs = some (.text "Pipelines")
  entries : ∀ d ∈ ks ++ xs, IsDependency d

/-- Metadata as the schema wants it. -/
structure IsValid (es : List (Value × Value)) : Prop where
  fields : (es.map (·.1)).filter
      (fun k => !([.text "tags", .text "ci", .text "links"] : List Value).contains k) =
    [.text "name", .text "stability", .text "dependencies", .text "lastVerified"]
  name : ∃ s, named "name" es = some (.text s)
  stability : ∃ s ∈ ["experimental", "alpha", "beta", "stable"],
    named "stability" es = some (.text s)
  dependencies : ∃ ds ks xs, named "dependencies" es = some (.map ds) ∧ IsDependencies ds ks xs
  tags : ∀ v, (.text "tags", v) ∈ es → ∃ ts : List String, v = .list (ts.map .text)
  ci : ∀ v, (.text "ci", v) ∈ es → ∃ probe, v = .map [(.text "skip_dependency_probe", probe)] ∧
    (probe = .null ∨ ∃ b, probe = .bool b)
  links : ∀ v, (.text "links", v) ∈ es → ∃ ls, v = .map ls

/-! ## Names among keys -/

@[simp] lemma refuse_ne_ok {α : Type} {m : String} {a : α} : refuse m ≠ .ok a := by
  simp [refuse]

lemma sameKeys_iff_perm {keys : List Value} {names : List String} (hnames : names.Nodup) :
    sameKeys keys names ↔ keys.Perm (names.map .text) := by
  rw [sameKeys, Bool.and_eq_true, decide_eq_true_eq, all_eq_true]
  constructor
  · rintro ⟨hlength, hall⟩
    have hsubset : names.map Value.text ⊆ keys := fun v hv => by
      obtain ⟨s, _, rfl⟩ := mem_map.mp hv
      exact contains_text_iff.mp (hall _ hv)
    have hsub := subperm_of_subset (hnames.map fun _ _ => Value.text.inj) hsubset
    exact (hsub.perm_of_length_le (by simp [hlength])).symm
  · intro hperm
    refine ⟨by simpa using hperm.length_eq, fun v hv => ?_⟩
    obtain ⟨s, hs, rfl⟩ := mem_map.mp hv
    exact contains_text_iff.mpr (hperm.mem_iff.mpr (mem_map_of_mem hs))

/-! ## The rules, one by one -/

lemma nameIn_eq_ok {s : String} : nameIn es = .ok s ↔ named "name" es = some (.text s) := by
  unfold nameIn
  rcases hname : named "name" es with _ | v
  · simp
  · cases v <;> simp [except_bind_eq_ok]

lemma checkFields_eq_ok {fields : List Value} :
    checkFields name fields = .ok () ↔ fields = requiredFields.map .text := by
  have hnone : ((requiredFields.map Value.text).filter fun f =>
      !(requiredFields.map Value.text).contains f) = [] := by
    rw [filter_eq_nil_iff]
    intro f hf
    obtain ⟨s, hs, rfl⟩ := mem_map.mp hf
    simp only [contains_iff_of_texts.mpr ⟨s, hs, rfl⟩, Bool.not_true, Bool.false_eq_true,
      not_false_eq_true]
  unfold checkFields
  rw [guard_eq_ok, guard_eq_ok, guard_eq_ok]
  · simp only [texts, Bool.not_eq_true, Bool.not_eq_false', List.isEmpty_iff, list_beq_texts_iff,
      except_pure_eq_ok, and_true]
    constructor
    · rintro ⟨_, _, h⟩
      exact h
    · rintro rfl
      exact ⟨hnone, hnone, rfl⟩
  · simp
  · simp [except_bind_eq_ok]
  · simp [except_bind_eq_ok]

lemma checkStability_eq_ok : checkStability name v = .ok () ↔ ∃ s ∈ stabilities, v = .text s := by
  unfold checkStability
  by_cases h : (texts stabilities).contains v
  · rw [if_pos h]
    exact iff_of_true rfl (contains_iff_of_texts.mp h)
  · rw [if_neg h]
    exact iff_of_false (by simp [except_bind_eq_ok]) (mt contains_iff_of_texts.mpr h)

lemma all_isText_iff : xs.all isText ↔ ∃ ts : List String, xs = ts.map .text := by
  induction xs with
  | nil => simp
  | cons x xs ih =>
    rw [all_cons, Bool.and_eq_true, ih]
    constructor
    · rintro ⟨hx, ts, rfl⟩
      cases x with
      | text t => exact ⟨t :: ts, rfl⟩
      | _ => cases hx
    · rintro ⟨_ | ⟨t, ts⟩, h⟩
      · cases h
      · cases h
        exact ⟨rfl, ts, rfl⟩

lemma checkTags_eq_ok :
    checkTags name v = .ok () ↔ ∃ ts : List String, v = .list (ts.map .text) := by
  cases v with
  | list xs =>
    simp only [checkTags, Value.list.injEq, ← all_isText_iff]
    split <;> simp_all [except_bind_eq_ok]
  | _ => simp [checkTags]

lemma exists_of_sameKeys_singleton (h : sameKeys (es.map (·.1)) [k]) :
    ∃ v, es = [(.text k, v)] := by
  rw [sameKeys_iff_perm (nodup_singleton k), map_singleton, perm_singleton] at h
  rcases es with _ | ⟨⟨key, v⟩, _ | ⟨e, es⟩⟩
  · cases h
  · obtain rfl : key = .text k := by simpa using h
    exact ⟨v, rfl⟩
  · simp at h

lemma checkAutomation_eq_ok :
    checkAutomation name v = .ok () ↔ ∃ probe, v = .map [(.text "skip_dependency_probe", probe)] ∧
      (probe = .null ∨ ∃ b, probe = .bool b) := by
  cases v with
  | map es =>
    have hnamed (probe : Value) : named "skip_dependency_probe"
        [(.text "skip_dependency_probe", probe)] = some probe := by
      rw [named_cons, if_pos (beq_text_iff.mpr rfl)]
    unfold checkAutomation
    rw [guard_eq_ok]
    · constructor
      · rintro ⟨hkeys, h⟩
        obtain ⟨probe, rfl⟩ := exists_of_sameKeys_singleton (by simpa using hkeys)
        refine ⟨probe, rfl, ?_⟩
        rw [hnamed, Option.getD_some] at h
        cases probe with
        | null => exact .inl rfl
        | bool b => exact .inr ⟨b, rfl⟩
        | _ => simp [except_bind_eq_ok] at h
      · rintro ⟨probe, h, hprobe⟩
        cases h
        refine ⟨by simp [sameKeys_iff_perm], ?_⟩
        rw [hnamed, Option.getD_some]
        rcases hprobe with rfl | ⟨b, rfl⟩ <;> rfl
    · simp [except_bind_eq_ok]
  | _ => simp [checkAutomation]

lemma checkLinks_eq_ok : checkLinks name v = .ok () ↔ ∃ ls, v = .map ls := by
  cases v <;> simp [checkLinks]

/-! ## Dependencies -/

lemma isSemantic_bareVersion_iff {s : String} :
    Version.isSemantic (bareVersion s) ↔ IsVersion s := by
  unfold bareVersion
  constructor
  · intro h
    split at h
    · rename_i hop
      have hs : s = Text.take 2 s ++ Text.drop 2 s := by simp [Text.take, Text.drop, ← String.ofList_append]
      exact ⟨Text.take 2 s, mem_cons_of_mem _ (contains_iff_mem.mp hop), _, hs, h⟩
    · exact ⟨"", by simp, s, by simp, h⟩
  · rintro ⟨op, hop, v, rfl, hv⟩
    rcases mem_cons.mp hop with rfl | hop
    · -- no comparison starts with a digit
      obtain ⟨c, cs, hcs, hc⟩ := Version.exists_digit_of_isSemantic hv
      have hnot : comparisons.contains (Text.take 2 ("" ++ v)) = false := by
        rw [Bool.eq_false_iff]
        intro hop
        have hhead : (Text.take 2 v).toList.head? = some c := by simp [Text.take, hcs]
        rcases by simpa [comparisons] using hop with h | h | h <;> rw [h] at hhead <;>
          obtain rfl := Option.some.inj hhead <;> cases hc
      rw [hnot, String.empty_append]
      simpa using hv
    · have htake : Text.take 2 (op ++ v) = op ∧ Text.drop 2 (op ++ v) = v := by
        simp only [mem_cons, not_mem_nil, or_false] at hop
        rcases hop with rfl | rfl | rfl <;> simp [Text.take, Text.drop]
      have hmem : comparisons.contains op := contains_iff_mem.mpr hop
      rw [htake.1, htake.2, if_pos hmem]
      exact hv

lemma hasValidVersion_eq_ok_true : hasValidVersion d = .ok true ↔
      ∃ es s, d = .map es ∧ named "version" es = some (.text s) ∧ IsVersion s := by
  unfold hasValidVersion
  rw [except_bind_eq_ok]
  constructor
  · rintro ⟨v, hv, h⟩
    obtain ⟨es, rfl, hversion⟩ := getOrNull_eq_ok.mp hv
    rcases hnamed : named "version" es with _ | w
    · rw [hnamed] at hversion
      cases hversion
      cases h
    · rw [hnamed, Option.getD_some] at hversion
      subst hversion
      cases w with
      | text s => exact ⟨es, s, rfl, hnamed, isSemantic_bareVersion_iff.mp (by simpa using h)⟩
      | _ => cases h
  · rintro ⟨es, s, rfl, hnamed, hs⟩
    refine ⟨.text s, by rw [getOrNull_map, hnamed]; rfl, ?_⟩
    simpa using isSemantic_bareVersion_iff.mpr hs

lemma invalidVersions_eq (hv : isOptionalList v) :
    invalidVersions v = (itemsOf v).filterM fun d => do
      let ok ← hasValidVersion d
      return !ok := by
  cases v with
  | null => rfl
  | list xs => rfl
  | _ => cases hv

lemma invalidVersions_eq_ok_nil (hv : isOptionalList v) :
    invalidVersions v = .ok [] ↔ ∀ d ∈ itemsOf v, hasValidVersion d = .ok true := by
  rw [invalidVersions_eq hv, filterM_eq_ok_nil]
  refine forall₂_congr fun d _ => ?_
  rw [except_bind_eq_ok]
  simp

lemma checkEntry_eq_ok :
    checkEntry d = .ok () ↔ d.mentions "name" = .ok true ∧ d.mentions "version" = .ok true := by
  rw [checkEntry, forM_eq_ok, entryFields]
  simp only [mem_cons, not_mem_nil, or_false, forall_eq_or_imp, forall_eq, except_bind_eq_ok]
  refine and_congr ?_ ?_
  all_goals
    constructor
    · rintro ⟨there, hthere, h⟩
      cases there with
      | true => exact hthere
      | false => simp [except_bind_eq_ok] at h
    · intro h
      exact ⟨true, h, rfl⟩

def IsPipelines (d : Value) : Prop :=
  ∃ fs, d = .map fs ∧ named "name" fs = some (.text "Pipelines")

lemma isMap_iff : v.isMap ↔ ∃ es, v = .map es := by
  cases v <;> simp [isMap]

lemma isPipelines_map_iff {fs : List (Value × Value)} : IsPipelines (.map fs) ↔
    ((named "name" fs).getD .null == .text "Pipelines") := by
  rw [beq_text_iff]
  constructor
  · rintro ⟨gs, h, hname⟩
    cases h
    rw [hname]
    rfl
  · intro h
    refine ⟨fs, rfl, ?_⟩
    cases hname : named "name" fs with
    | none =>
      rw [hname] at h
      cases h
    | some v =>
      rw [hname] at h
      exact congrArg some h

lemma hasPipelines_of_reached (h : Reached (fun d => ¬ IsPipelines d) (fun d => d.isMap) ks) :
    ∃ found, hasPipelines ks = .ok found ∧ (found ↔ ∃ d ∈ ks, IsPipelines d) := by
  induction ks with
  | nil => exact ⟨false, rfl, by simp⟩
  | cons d ks ih =>
    obtain ⟨hd, hks⟩ := reached_cons.mp h
    obtain ⟨fs, rfl⟩ := isMap_iff.mp hd
    rw [hasPipelines, getOrNull_map, except_ok_bind, exists_mem_cons_iff]
    by_cases hpipelines : IsPipelines (.map fs)
    -- the search ends here, whatever the rest is
    · rw [if_pos (isPipelines_map_iff.mp hpipelines)]
      exact ⟨true, rfl, iff_of_true rfl (.inl hpipelines)⟩
    · obtain ⟨found, hfound, hiff⟩ := ih (hks hpipelines)
      rw [if_neg (mt isPipelines_map_iff.mpr hpipelines)]
      exact ⟨found, hfound, hiff.trans (or_iff_right hpipelines).symm⟩

lemma hasPipelines_eq_ok_true (hks : ∀ d ∈ ks, d.isMap) :
    hasPipelines ks = .ok true ↔ ∃ d ∈ ks, IsPipelines d := by
  obtain ⟨found, hfound, hiff⟩ := @hasPipelines_of_reached ks fun l d r h _ =>
    hks d (by simp [h])
  rw [hfound, ← hiff, Except.ok.injEq]

lemma isDependency_iff :
    IsDependency d ↔ checkEntry d = .ok () ∧ hasValidVersion d = .ok true := by
  rw [checkEntry_eq_ok, hasValidVersion_eq_ok_true]
  constructor
  · rintro ⟨es, rfl, hname, s, hversion, hs⟩
    exact ⟨⟨congrArg _ hname, by simp [mentions, hversion]⟩,
      es, s, rfl, hversion, hs⟩
  · rintro ⟨⟨hname, _⟩, es, s, rfl, hversion, hs⟩
    exact ⟨es, rfl, Except.ok.inj hname, s, hversion, hs⟩

lemma eq_some_list_iff {v : Option Value} :
    v = some (.list ks) ↔ (v.getD .null).isList ∧ itemsOf (v.getD .null) = ks := by
  rcases v with _ | w
  · simp [isList]
  · cases w <;> simp [isList, itemsOf]

lemma eq_optional_list_iff {v : Option Value} :
    (v = some (.list xs) ∨ (v = none ∨ v = some .null) ∧ xs = []) ↔
      isOptionalList (v.getD .null) ∧ itemsOf (v.getD .null) = xs := by
  rcases v with _ | w
  · simp [isOptionalList, itemsOf]
  · cases w <;> simp [isOptionalList, itemsOf]

def HasSections (es : List (Value × Value)) : Prop :=
  (es.map (·.1)).Perm [.text "kubeflow"] ∨
    (es.map (·.1)).Perm [.text "kubeflow", .text "external_services"]

lemma hasSections_iff : HasSections es ↔
    (sameKeys (es.map (·.1)) ["kubeflow"] || sameKeys (es.map (·.1)) dependencyFields) := by
  rw [Bool.or_eq_true, sameKeys_iff_perm (nodup_singleton _),
    sameKeys_iff_perm (by decide : dependencyFields.Nodup)]
  rfl

lemma sections_eq_ok {kubeflow external : Value} (hk : isOptionalList kubeflow)
    (hx : isOptionalList external) (m : String) (m' : String → String) :
    (do
      if !(← hasPipelines (itemsOf kubeflow)) then refuse m
      (itemsOf kubeflow ++ itemsOf external).forM checkEntry
      let ks ← invalidVersions kubeflow
      let xs ← invalidVersions external
      if !(ks ++ xs).isEmpty then
        let shown ← (Value.list (ks ++ xs)).exactText
        refuse (m' shown)) = .ok () ↔
      (∃ d ∈ itemsOf kubeflow, IsPipelines d) ∧
        ∀ d ∈ itemsOf kubeflow ++ itemsOf external, IsDependency d := by
  have hall : (∀ d ∈ itemsOf kubeflow ++ itemsOf external, IsDependency d) ↔
      (∀ d ∈ itemsOf kubeflow ++ itemsOf external, checkEntry d = .ok ()) ∧
        invalidVersions kubeflow = .ok [] ∧ invalidVersions external = .ok [] := by
    rw [invalidVersions_eq_ok_nil hk, invalidVersions_eq_ok_nil hx, ← forall_mem_append, ← forall₂_and]
    exact forall₂_congr fun _ _ => isDependency_iff
  have hmaps (h : ∀ d ∈ itemsOf kubeflow ++ itemsOf external, IsDependency d) :
      ∀ d ∈ itemsOf kubeflow, d.isMap := by
    intro d hd
    obtain ⟨es, rfl, -⟩ := h d (mem_append_left _ hd)
    rfl
  rw [except_bind_eq_ok]
  constructor
  · rintro ⟨found, hfound, h⟩
    rw [guard_eq_ok (by simp [except_seq_eq_ok])] at h
    obtain ⟨hthere, h⟩ := h
    obtain ⟨hentries, h⟩ := except_seq_eq_ok.mp h
    obtain ⟨ks, hks, h⟩ := except_bind_eq_ok.mp h
    obtain ⟨xs, hxs, h⟩ := except_bind_eq_ok.mp h
    rw [guard_eq_ok (by simp [except_bind_eq_ok])] at h
    obtain ⟨rfl, rfl⟩ : ks = [] ∧ xs = [] := by simpa using h
    obtain rfl : found = true := by simpa using hthere
    have hdependencies := hall.mpr ⟨forM_eq_ok.mp hentries, hks, hxs⟩
    exact ⟨(hasPipelines_eq_ok_true (hmaps hdependencies)).mp hfound, hdependencies⟩
  · rintro ⟨hpipelines, hdependencies⟩
    obtain ⟨hentries, hks, hxs⟩ := hall.mp hdependencies
    refine ⟨true, (hasPipelines_eq_ok_true (hmaps hdependencies)).mpr hpipelines, ?_⟩
    simp [hks, hxs, forM_eq_ok.mpr hentries]

lemma checkDependencies_eq_ok :
    checkDependencies name v = .ok () ↔ ∃ ds ks xs, v = .map ds ∧ IsDependencies ds ks xs := by
  cases v with
  | map es =>
    have hpipelines {ks : List Value} : (∃ d ∈ ks, IsPipelines d) ↔
        ∃ fs, .map fs ∈ ks ∧ named "name" fs = some (.text "Pipelines") := by
      simp only [IsPipelines]
      aesop
    unfold checkDependencies
    rw [guard_eq_ok, guard_eq_ok]
    · simp only [Bool.not_eq_true, Bool.not_eq_false', Bool.or_eq_false_iff, ← hasSections_iff]
      constructor
      · rintro ⟨hkeys, ⟨hk, hx⟩, h⟩
        have hkubeflow := eq_some_list_iff.mpr ⟨hk, rfl⟩
        have hk' := (eq_optional_list_iff.mp (.inl hkubeflow)).1
        obtain ⟨hsearch, hall⟩ := (sections_eq_ok hk' hx _ _).mp h
        exact ⟨es, _, _, rfl, hkeys, hkubeflow, eq_optional_list_iff.mpr ⟨hx, rfl⟩,
          hpipelines.mp hsearch, hall⟩
      · rintro ⟨ds, ks, xs, h, hds⟩
        cases h
        obtain ⟨hk, rfl⟩ := eq_some_list_iff.mp hds.kubeflow
        obtain ⟨hx, rfl⟩ := eq_optional_list_iff.mp hds.external
        have hk' := (eq_optional_list_iff.mp (.inl hds.kubeflow)).1
        exact ⟨hds.keys, ⟨hk, hx⟩,
          (sections_eq_ok hk' hx _ _).mpr ⟨hpipelines.mpr hds.pipelines, hds.entries⟩⟩
    · simp only [ne_eq, except_bind_eq_ok, refuse_ne_ok, false_and, exists_false, not_false_eq_true]
    · simp only [ne_eq, except_bind_eq_ok, refuse_ne_ok, false_and, and_false, exists_false,
        not_false_eq_true]
  | _ => simp [checkDependencies]

/-! ## The schema -/

/-- A value that the rule for its field takes. -/
@[mk_iff]
structure FieldFits (field v : Value) : Prop where
  stability : field = .text "stability" → ∃ s ∈ stabilities, v = .text s
  dependencies : field = .text "dependencies" → ∃ ds ks xs, v = .map ds ∧ IsDependencies ds ks xs
  tags : field = .text "tags" → ∃ ts : List String, v = .list (ts.map .text)
  ci : field = .text "ci" → ∃ probe, v = .map [(.text "skip_dependency_probe", probe)] ∧
    (probe = .null ∨ ∃ b, probe = .bool b)
  links : field = .text "links" → ∃ ls, v = .map ls

lemma checkField_eq_ok {field : Value} :
    checkField name field v = .ok () ↔ FieldFits field v := by
  rw [fieldFits_iff]
  unfold checkField
  split
  · simp [checkStability_eq_ok]
  · simp [checkDependencies_eq_ok]
  · simp [checkTags_eq_ok]
  · simp [checkAutomation_eq_ok]
  · simp [checkLinks_eq_ok]
  · simp_all

/-- The fields of metadata, with those left out that may stand anywhere. -/
def orderedFields (es : List (Value × Value)) : List Value :=
  (es.map (·.1)).filter fun k => !(optionalFields.map Value.text).contains k

lemma checkSchema_map_eq_ok :
    checkSchema (.map es) = .ok () ↔ ∃ name, named "name" es = some (.text name) ∧
      orderedFields es = requiredFields.map .text ∧ ∀ e ∈ es, checkField name e.1 e.2 = .ok () := by
  simp only [checkSchema]
  rw [except_bind_eq_ok]
  simp only [nameIn_eq_ok, except_seq_eq_ok, checkFields_eq_ok, forM_eq_ok]
  rfl

lemma length_filter_of_orderedFields (hfields : orderedFields es = requiredFields.map .text) (hk : k ∈ requiredFields) : ((es.map (·.1)).filter (· == .text k)).length ≤ 1 := by
  have hkept : (optionalFields.map Value.text).contains (.text k) = false := by
    rw [Bool.eq_false_iff, Ne, contains_iff_of_texts]
    rintro ⟨s, hs, h⟩
    obtain rfl := Value.text.inj h
    exact (by decide : ∀ n ∈ requiredFields, n ∉ optionalFields) k hk hs
  have hfilter : (es.map (·.1)).filter (· == .text k) = (orderedFields es).filter (· == .text k) := by
    rw [orderedFields, filter_filter]
    refine filter_congr fun v _ => ?_
    by_cases hv : (v == .text k)
    · rw [beq_text_iff.mp hv, hkept, Bool.not_false, Bool.and_true]
    · rw [Bool.eq_false_iff.mpr hv, Bool.false_and]
  have hnodup : ((requiredFields.map Value.text).filter (· == .text k)).Nodup :=
    ((by decide : requiredFields.Nodup).map fun _ _ => Value.text.inj).filter _
  have hsame : ∀ v ∈ (requiredFields.map Value.text).filter (· == .text k), v = .text k :=
    fun v hv => beq_text_iff.mp (mem_filter.mp hv).2
  rw [hfilter, hfields]
  generalize (requiredFields.map Value.text).filter (· == .text k) = found at hnodup hsame ⊢
  rcases found with _ | ⟨v, _ | ⟨w, vs⟩⟩
  · simp
  · simp
  · rw [hsame v (by simp), hsame w (by simp)] at hnodup
    simp at hnodup

lemma exists_mem_of_orderedFields (hfields : orderedFields es = requiredFields.map .text) (hk : k ∈ requiredFields) : ∃ v, (.text k, v) ∈ es := by
  have hmem : Value.text k ∈ orderedFields es := by
    rw [hfields]
    exact mem_map_of_mem hk
  obtain ⟨⟨key, v⟩, hv, rfl⟩ := mem_map.mp (mem_of_mem_filter hmem)
  exact ⟨v, hv⟩

lemma isValid_of_checkSchema (h : checkSchema (.map es) = .ok ()) : IsValid es := by
  obtain ⟨name, hname, hfields, hall⟩ := checkSchema_map_eq_ok.mp h
  have hfield {k : String} {v : Value} (hv : (.text k, v) ∈ es) := checkField_eq_ok.mp (hall _ hv)
  have hnamed {k : String} (hk : k ∈ requiredFields) :
      ∃ v, (.text k, v) ∈ es ∧ named k es = some v := by
    obtain ⟨v, hv⟩ := exists_mem_of_orderedFields hfields hk
    exact ⟨v, hv, (named_eq_some_iff_mem (length_filter_of_orderedFields hfields hk)).mpr hv⟩
  constructor
  case fields => exact hfields
  case name => exact ⟨name, hname⟩
  case stability =>
    obtain ⟨v, hv, hstability⟩ := hnamed (k := "stability") (by decide)
    obtain ⟨s, hs, rfl⟩ := (hfield hv).stability rfl
    exact ⟨s, hs, hstability⟩
  case dependencies =>
    obtain ⟨v, hv, hdependencies⟩ := hnamed (k := "dependencies") (by decide)
    obtain ⟨ds, ks, xs, rfl, hds⟩ := (hfield hv).dependencies rfl
    exact ⟨ds, ks, xs, hdependencies, hds⟩
  case tags => exact fun v hv => (hfield hv).tags rfl
  case ci => exact fun v hv => (hfield hv).ci rfl
  case links => exact fun v hv => (hfield hv).links rfl

lemma checkSchema_of_isValid (h : IsValid es) : checkSchema (.map es) = .ok () := by
  obtain ⟨name, hname⟩ := h.name
  have hvalue {k : String} {v w : Value} (hk : k ∈ requiredFields) (hv : (.text k, v) ∈ es)
      (hw : named k es = some w) : v = w := by
    rw [(named_eq_some_iff_mem (length_filter_of_orderedFields h.fields hk)).mpr hv] at hw
    exact Option.some.inj hw
  refine checkSchema_map_eq_ok.mpr ⟨name, hname, h.fields, ?_⟩
  rintro ⟨k, v⟩ hv
  rw [checkField_eq_ok]
  refine ⟨?_, ?_, ?_, ?_, ?_⟩
  · rintro rfl
    obtain ⟨s, hs, hstability⟩ := h.stability
    exact ⟨s, hs, hvalue (by decide) hv hstability⟩
  · rintro rfl
    obtain ⟨ds, ks, xs, hdependencies, hds⟩ := h.dependencies
    exact ⟨ds, ks, xs, hvalue (by decide) hv hdependencies, hds⟩
  · rintro rfl
    exact h.tags v hv
  · rintro rfl
    exact h.ci v hv
  · rintro rfl
    exact h.links v hv

lemma exists_isValid_of_checkSchema {m : Value} (h : checkSchema m = .ok ()) :
    ∃ es, m = .map es ∧ IsValid es := by
  cases m with
  | map es => exact ⟨es, rfl, isValid_of_checkSchema h⟩
  | _ => simp [checkSchema] at h

/-- Exactly such mappings are taken as `IsValid` describes, and nothing but mappings. -/
theorem checkSchema_eq_ok_iff_isValid (m : Value) :
    checkSchema m = .ok () ↔ ∃ es, m = .map es ∧ IsValid es := by
  constructor
  · exact exists_isValid_of_checkSchema
  · rintro ⟨es, rfl, h⟩
    exact checkSchema_of_isValid h

end Metadata

end AssetCatalog
