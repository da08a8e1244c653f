import AssetCatalog.Metadata.Dependency
import AssetCatalog.Proofs.MetadataSchema

/-!
# Dependencies read by both checks

The schema wants semantic versions, and the check of dependencies version specifiers.
-/

namespace AssetCatalog.Version

open List Text

variable {cs : List Char} {xs : List Value}
variable {c : Char} {s v : String}

/-! ## Versions as specifiers -/

def schemaComparisons : List (String × Comparison) :=
  [(">=", .atLeast), ("<=", .atMost), ("==", .equal)]

/-- A comparison that the schema knows, in front of a version that it takes. -/
def IsComparison (s : String) : Prop :=
  ∃ spelling op v, (spelling, op) ∈ schemaComparisons ∧ s = spelling ++ v ∧
    op.takes (trimEnd v).toList = true

lemma isBlank_of_isDigit (h : c.isDigit) : isBlank c = false := by
  have hrange : 48 ≤ c.toNat ∧ c.toNat ≤ 57 := by
    simpa [Char.isDigit, UInt32.le_iff_toNat_le] using h
  simp only [isBlank, Bool.or_eq_false_iff, Bool.and_eq_false_iff, decide_eq_false_iff_not]
  omega

lemma release?_eq_none (cs : List Char) (hblank : isBlank c = false)
    (hv : foldLetter c ≠ 'v') (hdigit : c.isDigit = false) : release? (c :: cs) = none := by
  simp [release?, hblank, dropWord?, hv, digits?, hdigit, releaseFrom]

lemma trim_append_of_isSemantic {op : String} (hop : ∀ c ∈ op.toList, isBlank c = false)
    (hv : isSemantic v) : trim (op ++ v) = op ++ trimEnd v := by
  obtain ⟨c, cs, hcs, hdigit⟩ := exists_digit_of_isSemantic hv
  have hc : isBlank c = false := isBlank_of_isDigit hdigit
  have hstart : (op.toList ++ v.toList).dropWhile isBlank = op.toList ++ v.toList := by
    rcases hlist : op.toList with _ | ⟨d, ds⟩
    · simp [hcs, hc]
    · simp [hop d (by simp [hlist])]
  have hend : (v.toList.reverse.dropWhile isBlank).isEmpty = false := by
    simp [hcs, hc]
  rw [trim, trimBy, trimList, String.toList_append, hstart, reverse_append,
    dropWhile_append, hend, trimEnd]
  simp

lemma isSpecifier_of_digit (hs : s.toList = c :: cs) (hc : c.isDigit) :
    isSpecifier s = false := by
  have hne (d : Char) (hd : d.isDigit = false) : d ≠ c := by
    rintro rfl
    rw [hc] at hd
    cases hd
  simp [isSpecifier, Comparison.spellings, hs, hne]

lemma specifierComplaint?_eq_none_iff (hcomma : ',' ∉ s.toList) :
    specifierComplaint? s = none ↔ trim s = "" ∨ isSpecifier (trim s) := by
  have hsplit : split "," s = [s] := split_of_notMem ',' s hcomma
  by_cases hempty : trim s = ""
  · simp [specifierComplaint?, badSpecifier?, hsplit, hempty]
  · simp [specifierComplaint?, badSpecifier?, hsplit, hempty]

lemma comma_notMem_of_isSemantic {op : String} (hop : op ∈ ["", ">=", "<=", "=="])
    (hv : isSemantic v) : ',' ∉ (op ++ v).toList := by
  rw [String.toList_append, mem_append, not_or]
  constructor
  · revert op
    decide
  · intro hmem
    exact absurd (isVersionChar_of_isSemantic hv hmem) (by decide)

lemma exists_digit_of_trimEnd (hv : isSemantic v) :
    ∃ c cs, (trimEnd v).toList = c :: cs ∧ c.isDigit := by
  obtain ⟨c, cs, hcs, hdigit⟩ := exists_digit_of_isSemantic hv
  have hblank := isBlank_of_isDigit hdigit
  refine ⟨c, (cs.reverse.dropWhile isBlank).reverse, ?_, hdigit⟩
  rw [trimEnd, String.toList_ofList, hcs, reverse_cons, dropWhile_append]
  by_cases hrest : (cs.reverse.dropWhile isBlank).isEmpty
  · simp [hblank]
  · simp [hrest]

/-- Each comparison of the schema is tried as itself alone: a shorter one leaves an equals sign. -/
lemma isSpecifier_append {spelling : String} {op : Comparison}
    (hmem : (spelling, op) ∈ schemaComparisons) (hv : v.toList = c :: cs) (hc : c.isDigit) :
    isSpecifier (spelling ++ v) = op.takes v.toList := by
  have hequals : ('=' == c) = false := by
    rw [beq_eq_false_iff_ne]
    rintro rfl
    cases hc
  have hrelease : release? ('=' :: v.toList) = none :=
    release?_eq_none _ (by decide) (by decide) (by decide)
  have habove : Comparison.above.takes ('=' :: v.toList) = false := by
    simp [Comparison.takes, hrelease]
  have hbelow : Comparison.below.takes ('=' :: v.toList) = false := by
    simp [Comparison.takes, hrelease]
  have hidentical : ['='].isPrefixOf v.toList = false := by
    rw [hv, isPrefixOf_cons_cons, hequals, Bool.false_and]
  simp only [schemaComparisons, mem_cons, not_mem_nil, or_false] at hmem
  rcases hmem with ⟨rfl, rfl⟩ | ⟨rfl, rfl⟩ | ⟨rfl, rfl⟩ <;>
    simp [isSpecifier, Comparison.spellings, isPrefixOf_cons_cons, habove, hbelow, hidentical]

lemma isComparison_append_iff {spelling : String} {op : Comparison}
    (hmem : (spelling, op) ∈ schemaComparisons) :
    IsComparison (spelling ++ v) ↔ op.takes (trimEnd v).toList := by
  constructor
  · rintro ⟨spelling', op', v', hmem', heq, htakes⟩
    have hlength : ∀ x ∈ schemaComparisons, x.1.toList.length = 2 := by decide
    have hfunctional : ∀ x ∈ schemaComparisons, ∀ y ∈ schemaComparisons, x.1 = y.1 → x.2 = y.2 := by
      decide
    have hlists : spelling.toList ++ v.toList = spelling'.toList ++ v'.toList := by
      rw [← String.toList_append, heq, String.toList_append]
    obtain ⟨hspelling, hv⟩ :=
      append_inj hlists ((hlength _ hmem).trans (hlength _ hmem').symm)
    obtain rfl : op' = op :=
      hfunctional _ hmem' _ hmem (String.toList_injective hspelling.symm)
    obtain rfl : v = v' := String.toList_injective hv
    exact htakes
  · intro htakes
    exact ⟨spelling, op, v, hmem, rfl, htakes⟩

lemma not_isComparison_of_digit (hs : s.toList = c :: cs) (hc : c.isDigit) :
    ¬ IsComparison s := by
  rintro ⟨spelling, op, v, hmem, rfl, _⟩
  have hfirst : ∀ x ∈ schemaComparisons, ∃ d ds, x.1.toList = d :: ds ∧ d.isDigit = false := by
    simp [schemaComparisons]
  obtain ⟨d, ds, hds, hd⟩ := hfirst _ hmem
  rw [String.toList_append, hds, cons_append, List.cons.injEq] at hs
  rw [← hs.1, hd] at hc
  cases hc

lemma specifierComplaint?_eq_none_iff_isComparison (h : Metadata.IsVersion s) :
    specifierComplaint? s = none ↔ IsComparison s := by
  obtain ⟨spelling, hspelling, v, rfl, hv⟩ := h
  have hblank : ∀ op ∈ ["", ">=", "<=", "=="], ∀ c ∈ op.toList, isBlank c = false := by
    simp [isBlank]
  obtain ⟨c, cs, hcs, hdigit⟩ := exists_digit_of_trimEnd hv
  have hnonempty : spelling ++ trimEnd v ≠ "" := by
    rintro hempty
    have := congrArg String.toList hempty
    simp [hcs] at this
  rw [specifierComplaint?_eq_none_iff (comma_notMem_of_isSemantic hspelling hv),
    trim_append_of_isSemantic (hblank _ hspelling) hv, or_iff_right hnonempty]
  rcases mem_cons.mp hspelling with rfl | hspelling
  · obtain ⟨d, ds, hds, hd⟩ := exists_digit_of_isSemantic hv
    rw [String.empty_append, String.empty_append, isSpecifier_of_digit hcs hdigit]
    simpa using not_isComparison_of_digit hds hd
  · obtain ⟨op, hmem⟩ : ∃ op, (spelling, op) ∈ schemaComparisons := by
      revert spelling
      simp [schemaComparisons]
    rw [isSpecifier_append hmem hcs hdigit, isComparison_append_iff hmem]

end AssetCatalog.Version

namespace AssetCatalog.Metadata

open Value

def IsSpecified (d : Value) : Prop :=
  ∃ es name s, d = .map es ∧ named "name" es = some name ∧ name.truthy = true ∧
    named "version" es = some (.text s) ∧ Version.IsComparison s

def sectionEntries (section_ : String) (es : List (Value × Value)) : List Value :=
  itemsOf ((named section_ es).getD .null)

/-- The entries of both sections, in metadata that has them. -/
def declaredDependencies (metadata : Value) : List Value :=
  match metadata with
  | .map es =>
    match named "dependencies" es with
    | some (.map ds) => sectionEntries "kubeflow" ds ++ sectionEntries "external_services" ds
    | _ => []
  | _ => []

/-! ## The check of the dependencies, on metadata of the schema -/

lemma truthy_text_of_isVersion {s : String} (h : IsVersion s) : (Value.text s).truthy := by
  obtain ⟨op, _, v, rfl, hv⟩ := h
  obtain ⟨c, cs, hcs, _⟩ := Version.exists_digit_of_isSemantic hv
  have hne : v ≠ "" := by
    rintro rfl
    cases hcs
  simp [truthy, hne]

lemma entryComplaints_eq_ok_nil {label : String} {d : Value} (hd : IsDependency d) :
    entryComplaints label d = .ok [] ↔ IsSpecified d := by
  obtain ⟨es, rfl, hname, s, hs, hversion⟩ := hd
  obtain ⟨name, hname⟩ := Option.isSome_iff_exists.mp hname
  have hplain : (Value.text s).plainText = .ok s := rfl
  have hspecified : IsSpecified (.map es) ↔
      name.truthy ∧ Version.specifierComplaint? s = none := by
    rw [Version.specifierComplaint?_eq_none_iff_isComparison hversion]
    simp [IsSpecified, hname, hs]
  rw [hspecified, entryComplaints]
  simp only [hname, hs, Option.getD_some, truthy_text_of_isVersion hversion, hplain,
    except_ok_bind]
  cases hcomplaint : Version.specifierComplaint? s with
  | none => cases hnamed : name.truthy <;> simp
  | some c => simp [-bind_pure_comp, except_bind_eq_ok]

lemma sectionComplaints_list_eq_ok_nil {section_ label : String} :
    sectionComplaints section_ label (.list xs) = .ok [] ↔
      ∀ d ∈ xs, entryComplaints label d = .ok [] := by
  rw [← flatten_mapM_eq_ok_nil]
  cases xs with
  | nil => simp [sectionComplaints]
  | cons x xs => simp [sectionComplaints, truthy]

lemma sectionComplaints_eq_ok_nil (section_ label : String) {v : Option Value}
    (hv : v = some (.list xs) ∨ (v = none ∨ v = some .null) ∧ xs = [])
    (hxs : ∀ d ∈ xs, IsDependency d) :
    sectionComplaints section_ label (v.getD (.list [])) = .ok [] ↔ ∀ d ∈ xs, IsSpecified d := by
  have hlist : sectionComplaints section_ label (.list xs) = .ok [] ↔ ∀ d ∈ xs, IsSpecified d :=
    sectionComplaints_list_eq_ok_nil.trans
      (forall₂_congr fun d hd => entryComplaints_eq_ok_nil (hxs d hd))
  rcases hv with rfl | ⟨rfl | rfl, rfl⟩
  · exact hlist
  · exact hlist
  · simp [sectionComplaints, truthy]

lemma declaredDependencies_eq {es ds : List (Value × Value)} {ks : List Value}
    (hds : named "dependencies" es = some (.map ds)) (h : IsDependencies ds ks xs) :
    declaredDependencies (.map es) = ks ++ xs := by
  have hks : sectionEntries "kubeflow" ds = ks := by
    rw [sectionEntries, h.kubeflow]
    rfl
  have hxs : sectionEntries "external_services" ds = xs := by
    rcases h.external with hx | ⟨hx | hx, rfl⟩ <;>
    · rw [sectionEntries, hx]
      rfl
  simp only [declaredDependencies, hds, hks, hxs]

lemma dependencyComplaints_map_eq_ok_nil {es ds : List (Value × Value)} (hne : ds ≠ [])
    (hds : named "dependencies" es = some (.map ds)) :
    dependencyComplaints (.map es) = .ok [] ↔ ∀ section_ ∈ dependencySections,
      sectionComplaints section_.1 section_.2 ((named section_.1 ds).getD (.list [])) = .ok [] := by
  have hfound : (Value.map ds).orElse (.map []) = .map ds := by
    simp [orElse, truthy]
  rw [← flatten_mapM_eq_ok_nil, dependencyComplaints, getOrNull_map, hds]
  simp only [Option.getD_some, except_ok_bind, hfound]

/-- Metadata of the schema passes the check of its dependencies exactly if each of them has a name
that is not empty and a version that compares; a plain version, which the schema takes, is refused. -/
theorem dependencyComplaints_eq_nil_iff_isSpecified (m : Value) (hm : checkSchema m = .ok ()) :
    dependencyComplaints m = .ok [] ↔ ∀ d ∈ declaredDependencies m, IsSpecified d := by
  obtain ⟨es, rfl, hvalid⟩ := exists_isValid_of_checkSchema hm
  obtain ⟨ds, ks, xs, hds, hdependencies⟩ := hvalid.dependencies
  have hne : ds ≠ [] := by
    rintro rfl
    simpa using hdependencies.keys
  have hkubeflow := sectionComplaints_eq_ok_nil "kubeflow" "Kubeflow dependency"
    (.inl hdependencies.kubeflow) fun d hd => hdependencies.entries d (List.mem_append_left xs hd)
  have hexternal := sectionComplaints_eq_ok_nil "external_services" "External service dependency"
    hdependencies.external fun d hd => hdependencies.entries d (List.mem_append_right ks hd)
  rw [dependencyComplaints_map_eq_ok_nil hne hds, declaredDependencies_eq hds hdependencies]
  simp only [dependencySections, List.forall_mem_cons, List.forall_mem_append, hkubeflow, hexternal]
  simp

example : dependencyComplaints (.map []) = .ok [] := by decide +kernel

def withService (version : String) : Value :=
  let entry (name version : String) : Value :=
    .map [(.text "name", .text name), (.text "version", .text version)]
  .map
    [ (.text "name", .text "loader"), (.text "stability", .text "beta"),
      (.text "dependencies", .map
        [ (.text "kubeflow", .list [entry "Pipelines" ">=2.5.0"]),
          (.text "external_services", .list [entry "Argo Workflows" version])]),
      (.text "lastVerified", .text "2025-11-18")]

theorem dependencyComplaints_comparing : checkSchema (withService ">=3.6.0") = .ok () ∧
      dependencyComplaints (withService ">=3.6.0") = .ok [] ∧
      ∀ d ∈ declaredDependencies (withService ">=3.6.0"), IsSpecified d := by
  have hschema : checkSchema (withService ">=3.6.0") = .ok () := by decide +kernel
  have hnone : dependencyComplaints (withService ">=3.6.0") = .ok [] := by decide +kernel
  exact ⟨hschema, hnone, (dependencyComplaints_eq_nil_iff_isSpecified _ hschema).mp hnone⟩

/-- The schema takes a plain version, and the check of the dependencies refuses it. -/
theorem dependencyComplaints_plain : checkSchema (withService "3.6.0") = .ok () ∧
      dependencyComplaints (withService "3.6.0") =
        .ok ["External service dependency for Argo Workflows has an invalid version specifier " ++
          "'3.6.0': Invalid specifier: '3.6.0'"] := by
  constructor <;> decide +kernel

end AssetCatalog.Metadata
