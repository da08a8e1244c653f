import AssetCatalog.Metadata.Validation
import AssetCatalog.Proofs.CompileOutcome

/-!
# Metadata that the schema can judge

A check takes a value, refuses it with a message, or breaks off: here it is said which.
-/

namespace AssetCatalog

open List Value

variable {fields : List Value} {v : Value} {α β : Type}

/-- Something that gives a result, or fails with a fault in `S`. -/
def Within (S : Fault → Prop) (x : Except Fault α) : Prop := ∀ e, x = .error e → S e

section Within

variable {S : Fault → Prop} {x y : Except Fault α} {f : α → Except Fault β} {xs : List α}

@[simp] lemma within_ok (a : α) : Within S (.ok a) := fun e h => by cases h

@[simp] lemma within_pure (a : α) : Within S (pure a) := within_ok a

@[simp] lemma within_throw_iff {e : Fault} : Within S (throw e : Except Fault α) ↔ S e := by
  constructor
  · exact fun h => h e rfl
  · intro h e he
    cases he
    exact h

@[simp] lemma within_ite_iff {c : Prop} [Decidable c] :
    Within S (if c then x else y) ↔ (c → Within S x) ∧ (¬c → Within S y) := by
  by_cases hc : c <;> simp [hc]

@[simp] lemma within_bind_iff :
    Within S (x >>= f) ↔ Within S x ∧ ∀ a, x = .ok a → Within S (f a) := by
  rcases x with e | a
  · simp [Within, bind, Except.bind]
  · simp

/-- A refusal whose message shows something fails as showing that does. -/
lemma within_bind_iff_left (hf : ∀ a, Within S (f a)) : Within S (x >>= f) ↔ Within S x := by
  rw [within_bind_iff]
  exact and_iff_left fun a _ => hf a

lemma within_seq_iff {x : Except Fault Unit} {f : Unit → Except Fault β} :
    Within S (x >>= f) ↔ Within S x ∧ (x = .ok () → Within S (f ())) := by
  rw [within_bind_iff]
  exact and_congr_right fun _ => ⟨fun h => h (), fun h _ => h⟩

@[simp] lemma within_map {f : α → β} (hx : Within S x) : Within S (f <$> x) := by
  rw [map_eq_pure_bind, within_bind_iff]
  exact ⟨hx, fun a _ => within_pure (f a)⟩

lemma within_forM_iff {f : α → Except Fault Unit} :
    Within S (xs.forM f) ↔ Reached (fun x => f x = .ok ()) (fun x => Within S (f x)) xs := by
  induction xs with
  | nil => simp
  | cons x xs ih =>
    have hcons : (x :: xs).forM f = f x >>= fun _ => xs.forM f := rfl
    rw [hcons, within_seq_iff, reached_cons, ih]

lemma within_mapM_iff :
    Within S (xs.mapM f) ↔ Reached (fun x => ∃ y, f x = .ok y) (fun x => Within S (f x)) xs := by
  induction xs with
  | nil => simp
  | cons x xs ih =>
    rw [mapM_cons, within_bind_iff, reached_cons]
    simp only [within_bind_iff_left fun _ => within_pure _, ih, forall_exists_index]

lemma within_filterM_iff {f : α → Except Fault Bool} : Within S (xs.filterM f) ↔
      Reached (fun x => ∃ b, f x = .ok b) (fun x => Within S (f x)) xs := by
  induction xs with
  | nil => simp [filterM_nil]
  | cons x xs ih =>
    rw [filterM_cons, within_bind_iff, reached_cons]
    simp only [within_bind_iff_left fun _ => within_pure _, ih, forall_exists_index]

end Within

def Refusal (e : Fault) : Prop := ∃ m, e = .schema m

@[simp] def NoExit (e : Fault) : Prop := ∀ k, e ≠ .exit k

lemma decides_refuse (m : String) : Within Refusal (Metadata.refuse m : Except Fault α) :=
  within_throw_iff.mpr ⟨m, rfl⟩

lemma decides_refuse_bind (m : String) (f : α → Except Fault β) :
    Within Refusal (Metadata.refuse m >>= f) := decides_refuse m

@[simp] lemma noExit_refuse (m : String) : Within NoExit (Metadata.refuse m : Except Fault α) :=
  within_throw_iff.mpr fun k h => by cases h

namespace Value

lemma decides_checkWritable_iff : Within Refusal v.checkWritable ↔ v.isWritable := by
  rw [checkWritable, within_ite_iff, within_throw_iff]
  refine ⟨fun h => ?_, fun h => ⟨fun _ => within_pure (), fun hnot => absurd h hnot⟩⟩
  by_contra hnot
  obtain ⟨m, hm⟩ := h.2 hnot
  cases hm

lemma decides_plainText_iff : Within Refusal v.plainText ↔ v.isWritable :=
  (within_bind_iff_left fun _ => within_pure _).trans decides_checkWritable_iff

lemma decides_exactText_iff : Within Refusal v.exactText ↔ v.isWritable :=
  (within_bind_iff_left fun _ => within_pure _).trans decides_checkWritable_iff

lemma exists_exactText_iff : (∃ s, v.exactText = .ok s) ↔ v.isWritable := by
  constructor
  · rintro ⟨s, hs⟩
    rw [← decides_exactText_iff, hs]
    exact within_ok s
  · exact fun h => ⟨_, exactText_of_isWritable h⟩

/-- The kinds of values in which a name can be looked for. -/
def isContainer : Value → Bool
  | .text _ | .list _ | .tuple _ | .set _ | .map _ => true
  | _ => false

lemma exists_mentions (h : v.isContainer) (name : String) :
    ∃ there, v.mentions name = .ok there := by
  cases v <;> first | exact ⟨_, rfl⟩ | cases h

lemma decides_mentions_iff {name : String} : Within Refusal (v.mentions name) ↔ v.isContainer := by
  cases v <;> simp [mentions, isContainer, Refusal]

end Value

namespace Metadata

variable {name : String} {d : Value} {es : List (Value × Value)}

/-! ## The rules, one by one -/

lemma decides_setText_iff {xs : List Value} :
    Within Refusal (setText xs) ↔ ∀ x ∈ xs, x.isWritable := by
  rw [setText, within_bind_iff_left fun _ => within_pure _, within_mapM_iff, ← reached_self_iff]
  exact reached_congr (fun _ => exists_exactText_iff) fun _ => decides_exactText_iff

lemma decides_nameIn_iff :
    Within Refusal (nameIn es) ↔ ∀ v, named "name" es = some v → v.isWritable := by
  unfold nameIn
  rcases named "name" es with _ | v
  · simp [decides_refuse]
  · simp only [Option.some.injEq, forall_eq']
    cases v with
    | null => exact iff_of_true (decides_refuse _) rfl
    | text s => exact iff_of_true (within_ok _) rfl
    | _ => exact (within_bind_iff_left fun _ => decides_refuse _).trans decides_plainText_iff

lemma forall_extra_iff :
    (∀ k ∈ fields.filter (fun f => !(texts requiredFields).contains f), k.isWritable) ↔
      ∀ k ∈ fields, k.isWritable := by
  constructor
  · intro h k hk
    cases hknown : (texts requiredFields).contains k with
    | false => exact h k (mem_filter.mpr ⟨hk, by rw [hknown]; rfl⟩)
    | true =>
      obtain ⟨s, -, rfl⟩ := contains_iff_of_texts.mp hknown
      rfl
  · intro h k hk
    exact h k (mem_filter.mp hk).1

lemma decides_checkFields_iff : Within Refusal (checkFields name fields) ↔
      ((∀ k ∈ requiredFields, .text k ∈ fields) → ∀ k ∈ fields, k.isWritable) := by
  have hmissing : ((texts requiredFields).filter fun f => !fields.contains f).isEmpty ↔
      ∀ k ∈ requiredFields, .text k ∈ fields := by
    simp [texts, filter_eq_nil_iff, contains_text_iff]
  unfold checkFields
  dsimp only
  by_cases hall : ∀ k ∈ requiredFields, .text k ∈ fields
  · rw [hmissing.mpr hall, Bool.not_true, if_neg Bool.false_ne_true, forall_prop_of_true hall,
      ← forall_extra_iff]
    rcases fields.filter fun f => !(texts requiredFields).contains f with _ | ⟨k, ks⟩
    · refine iff_of_true ?_ (by simp)
      rw [isEmpty_nil, Bool.not_true, if_neg Bool.false_ne_true]
      split
      · exact decides_refuse _
      · exact within_ok ()
    · exact (within_bind_iff_left fun _ => decides_refuse_bind _ _).trans decides_setText_iff
  · rw [Bool.eq_false_iff.mpr (mt hmissing.mp hall), Bool.not_false, if_pos rfl]
    refine iff_of_true ?_ fun h => absurd h hall
    rw [within_bind_iff_left fun _ => decides_refuse_bind _ _, decides_setText_iff]
    intro v hv
    obtain ⟨k, -, rfl⟩ := mem_map.mp (mem_of_mem_filter hv)
    rfl

lemma decides_checkStability_iff : Within Refusal (checkStability name v) ↔ v.isWritable := by
  unfold checkStability
  split
  · next h =>
    obtain ⟨s, -, rfl⟩ := contains_iff_of_texts.mp h
    exact iff_of_true (within_ok _) rfl
  · exact (within_bind_iff_left fun _ => decides_refuse _).trans decides_plainText_iff

lemma decides_checkTags_iff : Within Refusal (checkTags name v) ↔ (v.isList → v.isWritable) := by
  cases v with
  | list xs =>
    simp only [checkTags, isList, true_implies]
    split
    · next h =>
      obtain ⟨ts, rfl⟩ := all_isText_iff.mp h
      rw [isWritable, areWritable_iff]
      simp [isWritable]
    · exact (within_bind_iff_left fun _ => decides_refuse _).trans decides_plainText_iff
  | _ => simp [checkTags, isList, decides_refuse]

/-- Switches of the checks that the schema takes or refuses. -/
structure AutomationJudgeable (es : List (Value × Value)) : Prop where
  keys : ¬ (es.map (·.1)).Perm [.text "skip_dependency_probe"] → ∀ e ∈ es, e.1.isWritable = true
  probe : (es.map (·.1)).Perm [.text "skip_dependency_probe"] →
    ∀ probe, named "skip_dependency_probe" es = some probe → probe.isWritable = true

lemma decides_checkAutomation_iff :
    Within Refusal (checkAutomation name v) ↔ ∀ es, v = .map es → AutomationJudgeable es := by
  cases v with
  | map es =>
    have hkeys : sameKeys (es.map (·.1)) ["skip_dependency_probe"] ↔
        (es.map (·.1)).Perm [.text "skip_dependency_probe"] :=
      sameKeys_iff_perm (nodup_singleton _)
    simp only [Value.map.injEq, forall_eq']
    unfold checkAutomation
    dsimp only
    by_cases hperm : (es.map (·.1)).Perm [.text "skip_dependency_probe"]
    · have hjudgeable : AutomationJudgeable es ↔
          ∀ probe, named "skip_dependency_probe" es = some probe → probe.isWritable :=
        ⟨fun h => h.probe hperm, fun h => ⟨fun hnot => absurd hperm hnot, fun _ => h⟩⟩
      rw [hkeys.mpr hperm, Bool.not_true, if_neg Bool.false_ne_true, hjudgeable]
      rcases named "skip_dependency_probe" es with _ | probe
      · simp
      · simp only [Option.some.injEq, forall_eq']
        cases probe with
        | null => exact iff_of_true (within_ok ()) rfl
        | bool b => exact iff_of_true (within_ok ()) rfl
        | _ => exact (within_bind_iff_left fun _ => decides_refuse _).trans decides_plainText_iff
    · rw [Bool.eq_false_iff.mpr (mt hkeys.mp hperm), Bool.not_false, if_pos rfl,
        within_bind_iff_left fun _ => decides_refuse_bind _ _, decides_exactText_iff,
        isWritable, areWritable_iff, forall_mem_map]
      exact ⟨fun h => ⟨fun _ => h, fun hs => absurd hs hperm⟩, fun h => h.keys hperm⟩
  | _ => simp [checkAutomation, decides_refuse]

lemma decides_checkLinks (name : String) (v : Value) : Within Refusal (checkLinks name v) := by
  cases v with
  | map es => exact within_ok ()
  | _ => exact decides_refuse _

/-! ## Dependencies -/

def IsComplete (d : Value) : Prop := d.mentions "name" = .ok true ∧ d.mentions "version" = .ok true

def HasVersion (d : Value) : Prop :=
  ∃ fs s, d = .map fs ∧ named "version" fs = some (.text s) ∧ IsVersion s

/-- The sections of dependencies, if their entries can be judged one after the other: first the search for
Pipelines, then the fields of all entries, then their versions. -/
structure SectionsJudgeable (ks xs : List Value) : Prop where
  search : Reached (fun d => ¬ IsPipelines d) (fun d => d.isMap = true) ks
  entries : (∃ d ∈ ks, IsPipelines d) → Reached IsComplete
    (fun d => d.isContainer = true ∧ (¬ IsComplete d → d.isWritable = true)) (ks ++ xs)
  versions : (∃ d ∈ ks, IsPipelines d) → (∀ d ∈ ks ++ xs, IsComplete d) →
    ∀ d ∈ ks ++ xs, d.isMap = true ∧ (¬ HasVersion d → d.isWritable = true)

lemma decides_getOrNull_iff : Within Refusal (v.getOrNull name) ↔ v.isMap := by
  cases v with
  | map es => exact iff_of_true (within_ok _) rfl
  | _ =>
    refine iff_of_false (fun h => ?_) Bool.false_ne_true
    obtain ⟨m, hm⟩ := h _ rfl
    cases hm

lemma reached_of_decides_hasPipelines {ks : List Value} (h : Within Refusal (hasPipelines ks)) :
    Reached (fun d => ¬ IsPipelines d) (fun d => d.isMap) ks := by
  induction ks with
  | nil => exact reached_nil
  | cons d ks ih =>
    rw [hasPipelines, within_bind_iff] at h
    have hd : d.isMap := decides_getOrNull_iff.mp h.1
    obtain ⟨fs, rfl⟩ := isMap_iff.mp hd
    refine reached_cons.mpr ⟨hd, fun hnot => ih ?_⟩
    have hrest := h.2 _ (getOrNull_map _ _)
    rwa [if_neg (mt isPipelines_map_iff.mpr hnot)] at hrest

lemma decides_checkEntry_iff : Within Refusal (checkEntry d) ↔
    d.isContainer ∧ (¬ IsComplete d → d.isWritable) := by
  by_cases hcontainer : d.isContainer
  · obtain ⟨named, hnamed⟩ := exists_mentions hcontainer "name"
    obtain ⟨versioned, hversioned⟩ := exists_mentions hcontainer "version"
    have hcomplete : IsComplete d ↔ named ∧ versioned := by
      simp [IsComplete, hnamed, hversioned]
    rw [hcomplete, checkEntry, entryFields, within_forM_iff, reached_cons, reached_cons]
    simp only [hnamed, hversioned, hcontainer]
    cases named with
    | false => simp [within_bind_iff_left (fun _ => decides_refuse _), decides_plainText_iff,
        except_bind_eq_ok]
    | true =>
      cases versioned with
      | false => simp [within_bind_iff_left (fun _ => decides_refuse _), decides_plainText_iff,
          within_ok, pure, Except.pure]
      | true => simp
  · refine iff_of_false (fun h => hcontainer ?_) fun h => hcontainer h.1
    rw [checkEntry, entryFields, within_forM_iff, reached_cons, within_bind_iff,
      decides_mentions_iff] at h
    exact h.1.1

lemma exists_hasValidVersion_iff : (∃ ok, hasValidVersion d = .ok ok) ↔ d.isMap := by
  cases d with
  | map fs =>
    refine iff_of_true ?_ rfl
    rw [hasValidVersion, getOrNull_map, except_ok_bind]
    split <;> exact ⟨_, rfl⟩
  | _ =>
    refine iff_of_false ?_ Bool.false_ne_true
    rintro ⟨ok, hok⟩
    cases hok

lemma decides_hasValidVersion_iff : Within Refusal (hasValidVersion d) ↔ d.isMap := by
  refine (within_bind_iff_left fun v => ?_).trans decides_getOrNull_iff
  split <;> exact within_pure _

lemma decides_invalidVersions_iff (hv : isOptionalList v) :
    Within Refusal (invalidVersions v) ↔ ∀ d ∈ itemsOf v, d.isMap := by
  rw [invalidVersions_eq hv, within_filterM_iff, ← reached_self_iff]
  refine reached_congr (fun d => ?_) fun d => ?_
  · rw [← exists_hasValidVersion_iff]
    constructor
    · rintro ⟨b, hb⟩
      obtain ⟨ok, hok, -⟩ := except_bind_eq_ok.mp hb
      exact ⟨ok, hok⟩
    · rintro ⟨ok, hok⟩
      exact ⟨!ok, by rw [hok]; rfl⟩
  · rw [within_bind_iff_left fun _ => within_pure _, decides_hasValidVersion_iff]

lemma invalidVersions_of_isMap (hv : isOptionalList v) (hmaps : ∀ d ∈ itemsOf v, d.isMap) :
    ∃ found, invalidVersions v = .ok found ∧ ∀ d, d ∈ found ↔ d ∈ itemsOf v ∧ ¬ HasVersion d := by
  refine ⟨(itemsOf v).filter fun d => !((hasValidVersion d).toOption.getD false), ?_, fun d => ?_⟩
  · rw [invalidVersions_eq hv]
    refine filterM_eq_ok fun d hd => ?_
    obtain ⟨ok, hok⟩ := exists_hasValidVersion_iff.mpr (hmaps d hd)
    rw [hok]
    rfl
  · rw [mem_filter]
    refine and_congr_right fun hd => ?_
    obtain ⟨ok, hok⟩ := exists_hasValidVersion_iff.mpr (hmaps d hd)
    rw [HasVersion, ← hasValidVersion_eq_ok_true, hok]
    cases ok <;> simp [Except.toOption]

lemma decides_refuse_unless_empty {ds : List Value} (m : String → String) :
    Within Refusal (if !ds.isEmpty then (Value.list ds).exactText >>= fun shown => refuse (m shown)
      else pure ()) ↔ ∀ d ∈ ds, d.isWritable := by
  rcases ds with _ | ⟨d, ds⟩
  · exact iff_of_true (within_ok ()) (by simp)
  · rw [isEmpty_cons, Bool.not_false, if_pos rfl, within_bind_iff_left fun _ => decides_refuse _,
      decides_exactText_iff, isWritable, areWritable_iff]

lemma decides_versions_iff {kubeflow external : Value} (hk : isOptionalList kubeflow)
    (hx : isOptionalList external) (m : String → String) :
    Within Refusal (do
      let ks ← invalidVersions kubeflow
      let xs ← invalidVersions external
      if !(ks ++ xs).isEmpty then
        let shown ← (Value.list (ks ++ xs)).exactText
        refuse (m shown)) ↔
      ∀ d ∈ itemsOf kubeflow ++ itemsOf external,
        d.isMap ∧ (¬ HasVersion d → d.isWritable) := by
  by_cases hmaps : ∀ d ∈ itemsOf kubeflow ++ itemsOf external, d.isMap
  · obtain ⟨hkmaps, hxmaps⟩ := forall_mem_append.mp hmaps
    obtain ⟨ks, hks, hksof⟩ := invalidVersions_of_isMap hk hkmaps
    obtain ⟨xs, hxs, hxsof⟩ := invalidVersions_of_isMap hx hxmaps
    rw [hks, except_ok_bind, hxs, except_ok_bind, decides_refuse_unless_empty]
    simp only [mem_append, hksof, hxsof]
    constructor
    · intro h d hd
      exact ⟨hmaps d (mem_append.mpr hd), fun hversion =>
        h d (hd.imp (⟨·, hversion⟩) (⟨·, hversion⟩))⟩
    · rintro h d (⟨hd, hversion⟩ | ⟨hd, hversion⟩)
      · exact (h d (.inl hd)).2 hversion
      · exact (h d (.inr hd)).2 hversion
  · refine iff_of_false (fun h => hmaps ?_) fun h => hmaps fun d hd => (h d hd).1
    rw [within_bind_iff, decides_invalidVersions_iff hk] at h
    obtain ⟨ks, hks, -⟩ := invalidVersions_of_isMap hk h.1
    have hrest := h.2 ks hks
    rw [within_bind_iff, decides_invalidVersions_iff hx] at hrest
    exact forall_mem_append.mpr ⟨h.1, hrest.1⟩

lemma decides_sections_iff {kubeflow external : Value} (hk : isOptionalList kubeflow)
    (hx : isOptionalList external) (m : String) (m' : String → String) :
    Within Refusal (do
      if !(← hasPipelines (itemsOf kubeflow)) then refuse m
      (itemsOf kubeflow ++ itemsOf external).forM checkEntry
      let ks ← invalidVersions kubeflow
      let xs ← invalidVersions external
      if !(ks ++ xs).isEmpty then
        let shown ← (Value.list (ks ++ xs)).exactText
        refuse (m' shown)) ↔ SectionsJudgeable (itemsOf kubeflow) (itemsOf external) := by
  have hcomplete (d : Value) : checkEntry d = .ok () ↔ IsComplete d := checkEntry_eq_ok
  by_cases hsearch : Reached (fun d => ¬ IsPipelines d) (fun d => d.isMap) (itemsOf kubeflow)
  · obtain ⟨found, hfound, hiff⟩ := hasPipelines_of_reached hsearch
    rw [hfound, except_ok_bind]
    cases found with
    | false =>
      have hnone : ¬ ∃ d ∈ itemsOf kubeflow, IsPipelines d := mt hiff.mpr Bool.false_ne_true
      exact iff_of_true (decides_refuse_bind _ _)
        ⟨hsearch, fun h => absurd h hnone, fun h => absurd h hnone⟩
    | true =>
      have hthere := hiff.mp rfl
      rw [Bool.not_true, if_neg Bool.false_ne_true, within_seq_iff, within_forM_iff,
        decides_versions_iff hk hx, forM_eq_ok]
      simp only [hcomplete, decides_checkEntry_iff]
      exact ⟨fun h => ⟨hsearch, fun _ => h.1, fun _ => h.2⟩,
        fun h => ⟨h.entries hthere, h.versions hthere⟩⟩
  · refine iff_of_false (fun h => hsearch ?_) fun h => hsearch h.search
    rw [within_bind_iff] at h
    exact reached_of_decides_hasPipelines h.1

/-- Dependencies that the schema takes or refuses. -/
structure DependenciesJudgeable (es : List (Value × Value)) : Prop where
  keys : ¬ HasSections es → ∀ e ∈ es, e.1.isWritable = true
  sections : HasSections es → ∀ ks xs, named "kubeflow" es = some (.list ks) →
    (named "external_services" es = some (.list xs) ∨
      (named "external_services" es = none ∨ named "external_services" es = some .null) ∧
        xs = []) → SectionsJudgeable ks xs

lemma decides_checkDependencies_iff :
    Within Refusal (checkDependencies name v) ↔ ∀ es, v = .map es → DependenciesJudgeable es := by
  cases v with
  | map es =>
    simp only [Value.map.injEq, forall_eq']
    unfold checkDependencies
    dsimp only
    by_cases hsections : HasSections es
    · rw [hasSections_iff.mp hsections, Bool.not_true, if_neg Bool.false_ne_true]
      by_cases hlists : ((named "kubeflow" es).getD .null).isList ∧
          isOptionalList ((named "external_services" es).getD .null)
      · obtain ⟨hk, hx⟩ := hlists
        have hkubeflow := eq_some_list_iff.mpr ⟨hk, rfl⟩
        have hk' := (eq_optional_list_iff.mp (.inl hkubeflow)).1
        rw [hk, hx, Bool.not_true, Bool.or_false, if_neg Bool.false_ne_true]
        refine (decides_sections_iff hk' hx _ _).trans ⟨fun h => ⟨fun hnot => absurd hsections hnot, ?_⟩, fun h => ?_⟩
        · rintro - ks xs hks hxs
          rw [← (eq_some_list_iff.mp hks).2, ← (eq_optional_list_iff.mp hxs).2]
          exact h
        · exact h.sections hsections _ _ hkubeflow (eq_optional_list_iff.mpr ⟨hx, rfl⟩)
      · have hguard : (!((named "kubeflow" es).getD .null).isList ||
            !isOptionalList ((named "external_services" es).getD .null)) := by
          rw [← Bool.not_and, Bool.not_eq_true', Bool.eq_false_iff, Ne, Bool.and_eq_true]
          exact hlists
        rw [if_pos hguard]
        refine iff_of_true (decides_refuse_bind _ _) ⟨fun hnot => absurd hsections hnot, ?_⟩
        rintro - ks xs hks hxs
        exact absurd ⟨(eq_some_list_iff.mp hks).1, (eq_optional_list_iff.mp hxs).1⟩ hlists
    · rw [Bool.eq_false_iff.mpr (mt hasSections_iff.mpr hsections), Bool.not_false, if_pos rfl,
        within_bind_iff_left fun _ => decides_refuse_bind _ _, decides_exactText_iff,
        isWritable, areWritable_iff, forall_mem_map]
      exact ⟨fun h => ⟨fun _ => h, fun hs => absurd hs hsections⟩, fun h => h.keys hsections⟩
  | _ => simp [checkDependencies, decides_refuse]

/-! ## The schema -/

/-- A value that the rule for its field takes or refuses. -/
@[mk_iff]
structure FieldJudgeable (field v : Value) : Prop where
  stability : field = .text "stability" → v.isWritable = true
  dependencies : field = .text "dependencies" → ∀ es, v = .map es → DependenciesJudgeable es
  tags : field = .text "tags" → v.isList = true → v.isWritable = true
  ci : field = .text "ci" → ∀ es, v = .map es → AutomationJudgeable es

lemma decides_checkField_iff {field : Value} :
    Within Refusal (checkField name field v) ↔ FieldJudgeable field v := by
  rw [fieldJudgeable_iff]
  unfold checkField
  split
  · simp [decides_checkStability_iff]
  · simp [decides_checkDependencies_iff]
  · simp [decides_checkTags_iff]
  · simp [decides_checkAutomation_iff]
  · simp [decides_checkLinks]
  · simp_all

/-- Metadata that the schema takes or refuses: first the name is looked at, then the fields that have a
place of their own, and then the values up to the first that is refused. -/
structure SchemaJudgeable (es : List (Value × Value)) : Prop where
  name : ∀ v, named "name" es = some v → v.isWritable = true
  fields : (∃ s, named "name" es = some (.text s)) →
    (∀ k ∈ requiredFields, .text k ∈ orderedFields es) → ∀ k ∈ orderedFields es, k.isWritable = true
  entries : (∃ s, named "name" es = some (.text s)) →
    orderedFields es = requiredFields.map .text →
    Reached (fun e => FieldFits e.1 e.2) (fun e => FieldJudgeable e.1 e.2) es

lemma decides_checkSchema_map_iff :
    Within Refusal (checkSchema (.map es)) ↔ SchemaJudgeable es := by
  rw [checkSchema, within_bind_iff, decides_nameIn_iff]
  have hentries (name : String) : Within Refusal (checkFields name (orderedFields es) >>= fun _ =>
      es.forM fun e => checkField name e.1 e.2) ↔
      ((∀ k ∈ requiredFields, .text k ∈ orderedFields es) →
        ∀ k ∈ orderedFields es, k.isWritable) ∧
      (orderedFields es = requiredFields.map .text →
        Reached (fun e => FieldFits e.1 e.2) (fun e => FieldJudgeable e.1 e.2) es) := by
    rw [within_seq_iff, decides_checkFields_iff, checkFields_eq_ok, within_forM_iff]
    simp only [checkField_eq_ok, decides_checkField_iff]
  constructor
  · rintro ⟨hname, hrest⟩
    refine ⟨hname, ?_, ?_⟩
    · rintro ⟨name, hnamed⟩
      exact ((hentries name).mp (hrest name (nameIn_eq_ok.mpr hnamed))).1
    · rintro ⟨name, hnamed⟩
      exact ((hentries name).mp (hrest name (nameIn_eq_ok.mpr hnamed))).2
  · intro h
    refine ⟨h.name, fun name hname => (hentries name).mpr ?_⟩
    have hnamed := nameIn_eq_ok.mp hname
    exact ⟨h.fields ⟨name, hnamed⟩, h.entries ⟨name, hnamed⟩⟩

end Metadata

/-! ## No rule ends the program -/

namespace Value

@[simp] lemma noExit_checkWritable (v : Value) : Within NoExit v.checkWritable := by
  rw [checkWritable, within_ite_iff]
  exact ⟨fun _ => within_pure (), fun _ => within_throw_iff.mpr fun k h => by cases h⟩

@[simp] lemma noExit_plainText (v : Value) : Within NoExit v.plainText := by simp [plainText]

@[simp] lemma noExit_exactText (v : Value) : Within NoExit v.exactText := by simp [exactText]

@[simp] lemma noExit_mentions (name : String) (v : Value) : Within NoExit (v.mentions name) := by
  cases v <;> simp [mentions]

@[simp] lemma noExit_getOrNull (name : String) (v : Value) : Within NoExit (v.getOrNull name) := by
  cases v <;> simp [getOrNull, get]

@[simp] lemma noExit_visits (v : Value) : Within NoExit v.visits := by
  cases v <;> simp [visits]

end Value

namespace Metadata

@[simp] lemma noExit_hasPipelines (ks : List Value) : Within NoExit (hasPipelines ks) := by
  induction ks with
  | nil => exact within_pure false
  | cons d ks ih => simp [hasPipelines, ih]

@[simp] lemma noExit_checkEntry (d : Value) : Within NoExit (checkEntry d) := by
  rw [checkEntry, within_forM_iff]
  simp

@[simp] lemma noExit_hasValidVersion (d : Value) : Within NoExit (hasValidVersion d) := by
  refine within_bind_iff.mpr ⟨noExit_getOrNull _ _, fun v _ => ?_⟩
  split <;> simp

@[simp] lemma noExit_invalidVersions (v : Value) : Within NoExit (invalidVersions v) := by
  unfold invalidVersions
  split
  · simp
  · refine within_bind_iff.mpr ⟨noExit_visits _, fun xs _ => ?_⟩
    rw [within_filterM_iff]
    simp

@[simp] lemma noExit_checkDependencies (name : String) (v : Value) :
    Within NoExit (checkDependencies name v) := by
  cases v <;> simp only [checkDependencies, within_ite_iff, within_bind_iff, noExit_refuse, within_pure,
    within_forM_iff, noExit_exactText, noExit_hasPipelines, noExit_checkEntry,
    noExit_invalidVersions, reached_of_forall, implies_true, and_self]

@[simp] lemma noExit_checkAutomation (name : String) (v : Value) :
    Within NoExit (checkAutomation name v) := by
  cases v with
  | map es =>
    simp only [checkAutomation, within_ite_iff, within_bind_iff, noExit_refuse,
      noExit_exactText, true_and]
    refine ⟨fun _ _ _ _ _ => ?_, fun _ => ?_⟩ <;> split <;> simp
  | _ => simp [checkAutomation]

lemma noExit_checkField (name : String) (field v : Value) : Within NoExit (checkField name field v) := by
  unfold checkField
  split
  · simp [checkStability]
  · simp
  · cases v <;> simp [checkTags]
  · simp
  · cases v <;> simp [checkLinks]
  · simp

lemma noExit_checkSchema (v : Value) : Within NoExit (checkSchema v) := by
  cases v with
  | map es =>
    have hname : Within NoExit (nameIn es) := by
      unfold nameIn
      split <;> simp
    have hfields (name : String) (fields : List Value) : Within NoExit (checkFields name fields) := by
      have hset (xs : List Value) : Within NoExit (setText xs) := by
        rw [setText, within_bind_iff, within_mapM_iff]
        simp
      simp [checkFields, hset]
    simp only [checkSchema, within_bind_iff, within_forM_iff, hname, hfields, noExit_checkField,
      reached_of_forall, implies_true, and_self]
  | _ => simp [checkSchema]

end Metadata

end AssetCatalog
