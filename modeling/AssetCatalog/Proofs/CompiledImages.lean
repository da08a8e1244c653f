import AssetCatalog.Asset.Compiled
import AssetCatalog.Proofs.SpecificationImages

/-!
# Images of compiled documents

Of several documents one is taken for the pipeline and one for the platforms.
-/

namespace AssetCatalog.Image

open List Value

open Asset (specification isPipelineSpec isPlatformSpec)

variable {images : List Value} {d i p q : Value}

/-! ## Images that a document names -/

def PipelineNames (d i : Value) : Prop := ∃ images, ofPipeline d = .ok images ∧ i ∈ images

def PlatformNames (d i : Value) : Prop := ∃ images, ofPlatforms d = .ok images ∧ i ∈ images

/-- An image that a document names in one way or the other. -/
def Names (d i : Value) : Prop := PipelineNames d i ∨ PlatformNames d i

/-- A document whose sections are of the kinds they should be: it can be read in both ways, and its
images are texts. -/
def IsTyped (d : Value) : Prop :=
  ∃ ps qs : List String, ofPipeline d = .ok (ps.map .text) ∧ ofPlatforms d = .ok (qs.map .text)

lemma not_platformNames (hd : isPlatformSpec d = false) : ¬ PlatformNames d i := by
  have hnone : mappingAt d ["platforms"] = [] := by
    cases d with
    | map es =>
      cases hes : named "platforms" es with
      | none => simp [mappingAt, valueAt, entriesOf, hes]
      | some v =>
        have hv : v.isMap = false := by simpa [isPlatformSpec, hes] using hd
        cases v <;> simp_all [mappingAt, valueAt, entriesOf, isMap]
    | _ => rfl
  rintro ⟨images, himages, hi⟩
  have hmem := mem_platformImages himages hi
  rw [platformImages, hnone] at hmem
  cases hmem

lemma not_pipelineNames (hd : isPipelineSpec d = false) : ¬ PipelineNames d i := by
  rintro ⟨images, himages, hi⟩
  have hmem := mem_pipelineImages himages hi
  cases d with
  | map es =>
    rw [isPipelineSpec, Bool.or_eq_false_iff, Option.isSome_eq_false_iff,
      Option.isSome_eq_false_iff, Option.isNone_iff_eq_none, Option.isNone_iff_eq_none] at hd
    simp [pipelineImages, executorImages, mappingAt, valueAt, entriesOf, hd.1, hd.2, imagesAt] at hmem
  | _ => cases himages

/-! ## What is read -/

/-- A mapping that holds a pipeline and platforms. -/
def Wraps (v p q : Value) : Prop :=
  ∃ es, v = .map es ∧ named "pipeline_spec" es = some p ∧
    named "platform_spec" es = some q

lemma pipelineNames_iff (h : ofPipeline d = .ok images) (i : Value) :
    PipelineNames d i ↔ i ∈ images := by
  simp [PipelineNames, h]

lemma platformNames_iff (h : ofPlatforms d = .ok images) (i : Value) :
    PlatformNames d i ↔ i ∈ images := by
  simp [PlatformNames, h]

lemma ofCompiled_of_wraps {v : Value} (h : Wraps v p q) (hp : IsTyped p) (hq : IsTyped q) :
    ∃ images, ofCompiled v = .ok images ∧
      ∀ i, i ∈ images ↔ PipelineNames p i ∨ PlatformNames q i := by
  obtain ⟨es, rfl, hpipeline, hplatform⟩ := h
  obtain ⟨ps, _, hps, _⟩ := hp
  obtain ⟨_, qs, _, hqs⟩ := hq
  refine ⟨addMembers (qs.map .text) (ps.map .text), ?_, ?_⟩
  · simp [ofCompiled, hpipeline, hplatform, hps, hqs, addMembers]
  intro i
  rw [pipelineNames_iff hps, platformNames_iff hqs,
    mem_addMembers_of_areTexts (by simp [Value.AreTexts])]

lemma ofCompiled_of_not_wraps {v : Value} (hmap : v.isMap) (h : ∀ p q, ¬ Wraps v p q) :
    ofCompiled v = ofPipeline v := by
  cases v with
  | map es =>
    cases hp : named "pipeline_spec" es with
    | none => simp [ofCompiled, hp]
    | some p =>
      cases hq : named "platform_spec" es with
      | none => simp [ofCompiled, hq]
      | some q => exact absurd ⟨es, rfl, hp, hq⟩ (h p q)
  | _ => cases hmap

lemma wraps_pair (p q : Value) :
    Wraps (.map [(.text "pipeline_spec", p), (.text "platform_spec", q)]) p q := by
  simp [Wraps, named_cons]

lemma wraps_inj {p' q' : Value} (h : Wraps d p q) (h' : Wraps d p' q') : p' = p ∧ q' = q := by
  obtain ⟨es, rfl, hp, hq⟩ := h
  obtain ⟨_, ⟨⟩, hp', hq'⟩ := h'
  exact ⟨Option.some.inj (hp'.symm.trans hp), Option.some.inj (hq'.symm.trans hq)⟩

/-! ## The documents -/

abbrev mappings (docs : List Value) : List Value := docs.filter isMap

/-- The document that is taken for the pipeline, where there are several. -/
def pipelineIn (ds : List Value) : Option Value :=
  ds.find? fun d => isPipelineSpec d && !isPlatformSpec d

/-- The document that is taken for the platforms, where there are several. -/
def platformsIn (ds : List Value) : Option Value := ds.find? isPlatformSpec

lemma specification_eq_ok {place : String} {docs : List Value} {result : Value}
    (h : specification place docs = .ok result) :
    mappings docs = [result] ∨
      2 ≤ (mappings docs).length ∧ ∃ p q, pipelineIn (mappings docs) = some p ∧
        platformsIn (mappings docs) = some q ∧
        result = .map [(.text "pipeline_spec", p), (.text "platform_spec", q)] := by
  unfold specification at h
  split at h
  · cases h
  · next d hds =>
    cases h
    exact .inl hds
  · next hempty hsingle =>
    refine .inr ⟨?_, ?_⟩
    · match hds : mappings docs with
      | [] => exact absurd hds hempty
      | [d] => exact absurd hds (hsingle d)
      | _ :: _ :: _ => simp
    · split at h
      · next p q hp hq =>
        cases h
        exact ⟨p, q, hp, hq, rfl⟩
      · cases h

/-- No image of the documents `ds` is overlooked. The only document is read as a pipeline, so its
platforms must not name more; one that looks like a pair of pipeline and platforms is read as such a
pair. Of several documents one is read as the pipeline and one as the platforms, so the others must
not name more, nor the platforms as a pipeline. -/
inductive AllSeen (ds : List Value) : Prop
  | alone {d : Value} (hds : ds = [d]) (hwraps : ∀ p q, ¬ Wraps d p q)
      (h : ∀ i, PlatformNames d i → PipelineNames d i)
  | paired {d p q : Value} (hds : ds = [d]) (hwraps : Wraps d p q)
      (h : ∀ i, Names d i ↔ PipelineNames p i ∨ PlatformNames q i)
  | several {p q : Value} (hds : 2 ≤ ds.length) (hp : pipelineIn ds = some p)
      (hq : platformsIn ds = some q)
      (h : ∀ i, (PipelineNames q i ∨ ∃ d ∈ ds, d ≠ p ∧ d ≠ q ∧ Names d i) →
        PipelineNames p i ∨ PlatformNames q i)

lemma allSeen_singleton_iff (hwraps : ∀ p q, ¬ Wraps d p q) :
    AllSeen [d] ↔ ∀ i, PlatformNames d i → PipelineNames d i := by
  constructor
  · intro h
    cases h with
    | alone hds _ h =>
      cases hds
      exact h
    | paired hds hwraps' h =>
      cases hds
      exact absurd hwraps' (hwraps _ _)
    | several hds => simp at hds
  · exact .alone rfl hwraps

lemma allSeen_paired_iff (hwraps : Wraps d p q) :
    AllSeen [d] ↔ ∀ i, Names d i ↔ PipelineNames p i ∨ PlatformNames q i := by
  constructor
  · intro h
    cases h with
    | alone hds hnone _ =>
      cases hds
      exact absurd hwraps (hnone _ _)
    | paired hds hwraps' h =>
      cases hds
      obtain ⟨rfl, rfl⟩ := wraps_inj hwraps hwraps'
      exact h
    | several hds => simp at hds
  · exact .paired rfl hwraps

lemma allSeen_several_iff {ds : List Value} (hds : 2 ≤ ds.length) (hp : pipelineIn ds = some p)
    (hq : platformsIn ds = some q) :
    AllSeen ds ↔ ∀ i, (∃ d ∈ ds, Names d i) ↔ PipelineNames p i ∨ PlatformNames q i := by
  have hplatform (i : Value) : ¬ PlatformNames p i := by
    have hp := find?_some hp
    rw [Bool.and_eq_true, Bool.not_eq_true'] at hp
    exact not_platformNames hp.2
  constructor
  · intro h i
    cases h with
    | alone hds' => simp [hds'] at hds
    | paired hds' => simp [hds'] at hds
    | @several p' q' _ hp' hq' h =>
      obtain rfl : p' = p := Option.some.inj (hp'.symm.trans hp)
      obtain rfl : q' = q := Option.some.inj (hq'.symm.trans hq)
      constructor
      · rintro ⟨d, hd, hnames⟩
        by_cases hdp : d = p'
        · subst hdp
          exact .inl (hnames.resolve_right (hplatform i))
        · by_cases hdq : d = q'
          · subst hdq
            exact hnames.elim (fun hpipeline => h i (.inl hpipeline)) .inr
          · exact h i (.inr ⟨d, hd, hdp, hdq, hnames⟩)
      · rintro (hi | hi)
        · exact ⟨p', mem_of_find?_eq_some hp, .inl hi⟩
        · exact ⟨q', mem_of_find?_eq_some hq, .inr hi⟩
  · intro h
    refine .several hds hp hq fun i hi => (h i).mp ?_
    rcases hi with hi | ⟨d, hd, _, _, hi⟩
    · exact ⟨q, mem_of_find?_eq_some hq, .inl hi⟩
    · exact ⟨d, hd, hi⟩

lemma allSeen_pair (hp : isPipelineSpec p) (hp' : isPlatformSpec p = false)
    (hq : isPlatformSpec q) (hq' : isPipelineSpec q = false) : AllSeen [p, q] := by
  have hpipeline : pipelineIn [p, q] = some p := by simp [pipelineIn, hp, hp']
  have hplatforms : platformsIn [p, q] = some q := by simp [platformsIn, hp', hq]
  refine .several (by simp) hpipeline hplatforms fun i hi => ?_
  rcases hi with hi | ⟨d, hd, hdp, hdq, _⟩
  · exact absurd hi (not_pipelineNames hq')
  · simp [hdp, hdq] at hd

/-- The images that are found are those of all documents exactly if none is overlooked. -/
theorem images_eq_union_iff_allSeen {place : String} {docs : List Value} {result : Value}
    (hresult : specification place docs = .ok result) (htyped : ∀ d ∈ mappings docs, IsTyped d)
    (hparts : mappings docs = [result] → ∀ p q, Wraps result p q → IsTyped p ∧ IsTyped q) :
    ∃ images, ofCompiled result = .ok images ∧
      ((∀ i, i ∈ images ↔ ∃ d ∈ mappings docs, Names d i) ↔ AllSeen (mappings docs)) := by
  rcases specification_eq_ok hresult with hds | ⟨hlength, p, q, hp, hq, rfl⟩
  · have hmap : result.isMap = true :=
      of_mem_filter (hds ▸ mem_singleton_self result : result ∈ mappings docs)
    rw [hds]
    by_cases hwraps : ∃ p q, Wraps result p q
    · obtain ⟨p, q, hpq⟩ := hwraps
      obtain ⟨hp, hq⟩ := hparts hds p q hpq
      obtain ⟨images, himages, hmem⟩ := ofCompiled_of_wraps hpq hp hq
      refine ⟨images, himages, ?_⟩
      rw [allSeen_paired_iff hpq]
      refine forall_congr' fun i => ?_
      rw [hmem]
      simp [iff_comm]
    · simp only [not_exists] at hwraps
      obtain ⟨ps, _, hps, _⟩ := htyped result (hds ▸ mem_singleton_self _)
      refine ⟨ps.map .text, (ofCompiled_of_not_wraps hmap hwraps).trans hps, ?_⟩
      rw [allSeen_singleton_iff hwraps]
      refine forall_congr' fun i => ?_
      rw [← pipelineNames_iff hps]
      simp [Names]
  · obtain ⟨images, himages, hmem⟩ := ofCompiled_of_wraps (wraps_pair p q)
      (htyped p (mem_of_find?_eq_some hp)) (htyped q (mem_of_find?_eq_some hq))
    refine ⟨images, himages, ?_⟩
    rw [allSeen_several_iff hlength hp hq]
    refine forall_congr' fun i => ?_
    rw [hmem]
    exact iff_comm

def lonePipeline (image : String) : Value :=
  .map [(.text "deploymentSpec", .map [(.text "executors", .map [(.text "run", .map
    [(.text "container", .map [(.text "image", .text image)])])])])]

def lonePlatform (image : String) : Value :=
  .map [(.text "platforms", .map [(.text "kubernetes", lonePipeline image)])]

def loneResult (image other : String) : Value :=
  .map [(.text "pipeline_spec", lonePipeline image), (.text "platform_spec", lonePlatform other)]

theorem images_eq_union_both :
    ∃ images, ofCompiled (loneResult "python:3.11" "python:3.12") = .ok images ∧
      specification "tuner.yaml" [lonePipeline "python:3.11", lonePlatform "python:3.12"] =
        .ok (loneResult "python:3.11" "python:3.12") ∧
      ∀ i, i ∈ images ↔
        ∃ d ∈ [lonePipeline "python:3.11", lonePlatform "python:3.12"], Names d i := by
  have hresult : specification "tuner.yaml"
      [lonePipeline "python:3.11", lonePlatform "python:3.12"] =
    .ok (loneResult "python:3.11" "python:3.12") := by cbv
  have hmappings : mappings [lonePipeline "python:3.11", lonePlatform "python:3.12"] =
    [lonePipeline "python:3.11", lonePlatform "python:3.12"] := rfl
  have hpipeline : IsTyped (lonePipeline "python:3.11") := ⟨["python:3.11"], [], by cbv, by cbv⟩
  have hplatform : IsTyped (lonePlatform "python:3.12") := ⟨[], ["python:3.12"], by cbv, by cbv⟩
  obtain ⟨images, himages, hsame⟩ := images_eq_union_iff_allSeen hresult
    (by simp [hmappings, hpipeline, hplatform]) (by simp [hmappings])
  have hseen : AllSeen [lonePipeline "python:3.11", lonePlatform "python:3.12"] :=
    allSeen_pair (by cbv) (by cbv) (by cbv) (by cbv)
  exact ⟨images, himages, hresult, hsame.mpr hseen⟩

/-- Of three documents the second pipeline is overlooked, and so is its image. -/
theorem second_pipeline_overlooked : specification "tuner.yaml"
        [lonePipeline "python:3.11", lonePipeline "evil:latest", lonePlatform "python:3.12"] =
      .ok (loneResult "python:3.11" "python:3.12") ∧
    (∃ images, ofCompiled (loneResult "python:3.11" "python:3.12") = .ok images ∧
      .text "evil:latest" ∉ images) ∧
    Names (lonePipeline "evil:latest") (.text "evil:latest") := by
  refine ⟨by cbv, ⟨[.text "python:3.11", .text "python:3.12"], by cbv, by simp⟩, .inl ?_⟩
  exact ⟨[.text "evil:latest"], by cbv, mem_singleton_self _⟩

end AssetCatalog.Image
