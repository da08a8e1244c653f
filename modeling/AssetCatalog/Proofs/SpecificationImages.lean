import AssetCatalog.Image.Specification
import AssetCatalog.Proofs.Value

/-!
# The images that a specification names

Components never matter for the images that are found, but for whether any are.
-/

namespace AssetCatalog

open List Value

namespace Value

variable {i v : Value} {xs ys is : List Value}

def IsIn (v : Value) (xs : List Value) : Prop := v ∈ xs ∨ xs.any (sameMember v) = true

def addMembers (is xs : List Value) : List Value := is.foldl (fun acc i => addMember i acc) xs

lemma mem_or_eq_of_mem_addMember (h : i ∈ addMember v xs) : i ∈ xs ∨ i = v := by
  unfold addMember at h
  split at h
  · exact .inl h
  · simpa using h

lemma isIn_addMember (v : Value) (xs : List Value) : IsIn v (addMember v xs) := by
  unfold addMember
  split
  · next h => exact .inr h
  · exact .inl (mem_append_right xs (mem_singleton_self v))

lemma IsIn.addMember (h : IsIn i xs) (v : Value) : IsIn i (addMember v xs) := by
  unfold Value.addMember
  split
  · exact h
  · refine h.imp (mem_append_left [v]) fun h => ?_
    rw [any_append, h, Bool.true_or]

lemma mem_addMember_of_isIn (h : IsIn v xs) : i ∈ addMember v xs ↔ i ∈ xs := by
  unfold addMember
  split
  · rfl
  · next hnot =>
    have hv := h.resolve_right hnot
    rw [mem_append, mem_singleton, or_iff_left_iff_imp]
    rintro rfl
    exact hv

lemma mem_addMember_of_mem (h : i ∈ xs) (v : Value) : i ∈ addMember v xs := by
  unfold addMember
  split
  · exact h
  · exact mem_append_left _ h

lemma mem_addMembers_of_mem (h : i ∈ xs) (is : List Value) : i ∈ addMembers is xs := by
  induction is generalizing xs with
  | nil => exact h
  | cons v is ih => exact ih (mem_addMember_of_mem h v)

lemma mem_addMembers_of_isIn (h : ∀ j ∈ is, IsIn j xs) : i ∈ addMembers is xs ↔ i ∈ xs := by
  induction is generalizing xs with
  | nil => rfl
  | cons v is ih =>
    obtain ⟨hv, his⟩ := forall_mem_cons.mp h
    exact (ih fun j hj => (his j hj).addMember v).trans (mem_addMember_of_isIn hv)

lemma addMembers_append (is js xs : List Value) :
    addMembers (is ++ js) xs = addMembers js (addMembers is xs) := foldl_append

lemma mem_of_mem_addMembers (h : i ∈ addMembers is xs) : i ∈ xs ∨ i ∈ is := by
  induction is generalizing xs with
  | nil => exact .inl h
  | cons v is ih =>
    rcases ih h with h | h
    · rcases mem_or_eq_of_mem_addMember h with h | rfl
      · exact .inl h
      · exact .inr mem_cons_self
    · exact .inr (mem_cons_of_mem v h)

lemma IsIn.addMembers (h : IsIn i xs) (is : List Value) : IsIn i (addMembers is xs) := by
  induction is generalizing xs with
  | nil => exact h
  | cons v is ih => exact ih (h.addMember v)

lemma isIn_addMembers (h : i ∈ is) (xs : List Value) : IsIn i (addMembers is xs) := by
  induction is generalizing xs with
  | nil => cases h
  | cons v is ih =>
    rcases mem_cons.mp h with rfl | h
    · exact (isIn_addMember i xs).addMembers is
    · exact ih h _

lemma mem_addMembers_of_areTexts (h : AreTexts is) : i ∈ addMembers is xs ↔ i ∈ xs ∨ i ∈ is := by
  constructor
  · exact mem_of_mem_addMembers
  · rintro (hi | hi)
    · exact mem_addMembers_of_mem hi is
    · obtain ⟨s, rfl⟩ := h i hi
      exact (isIn_addMembers hi xs).elim id any_sameMember_text_iff.mp

lemma AreTexts.hashable (h : AreTexts is) : ∀ i ∈ is, i.hashable := by
  intro i hi
  obtain ⟨s, rfl⟩ := h i hi
  rfl

end Value

namespace Image

open Value (addMembers IsIn)

variable {i v w c x : Value} {xs ys vs images : List Value} {es cs : List (Value × Value)}

/-- What stands at a name of a mapping, at the next name in that, and so on: null if nothing does. -/
def valueAt (v : Value) : List String → Value
  | [] => v
  | n :: ns => valueAt ((named n (entriesOf v)).getD .null) ns

def mappingAt (v : Value) (path : List String) : List (Value × Value) := entriesOf (valueAt v path)

/-- The images that the values of a mapping name in their parts of a name. -/
def imagesAt (name : String) (owners : List (Value × Value)) : List Value :=
  (owners.map fun o => valueAt o.2 [name, "image"]).filter truthy

def executorImages (v : Value) : List Value :=
  imagesAt "container" (mappingAt v ["deploymentSpec", "executors"])

/-- The images that a pipeline names: those of its executors, and those of the tasks at its root. -/
def pipelineImages (v : Value) : List Value :=
  executorImages v ++ imagesAt "componentRef" (mappingAt v ["root", "dag", "tasks"])

def platformImages (v : Value) : List Value :=
  (mappingAt v ["platforms"]).flatMap fun p => executorImages p.2

/-! ## Steps -/

lemma foldlM_addIfTruthy_eq_ok : vs.foldlM (fun xs i => addIfTruthy i xs) xs = .ok ys ↔
      (∀ i ∈ vs.filter truthy, i.hashable) ∧
        ys = addMembers (vs.filter truthy) xs := by
  induction vs generalizing xs with
  | nil =>
    rw [foldlM_nil, except_pure_eq_ok, eq_comm]
    simp [addMembers]
  | cons v vs ih =>
    rw [foldlM_cons, addIfTruthy, joinSet, filter_cons]
    by_cases htruthy : v.truthy
    · rw [if_pos htruthy, if_pos htruthy, forall_mem_cons]
      by_cases hhashable : v.hashable
      · rw [if_pos hhashable, and_iff_right hhashable]
        exact ih
      · rw [if_neg hhashable]
        exact iff_of_false except_throw_bind_ne_ok fun h => hhashable h.1.1
    · rw [if_neg htruthy, if_neg htruthy]
      exact ih

lemma addAll_eq_ok {name : String} : addAll name es xs = .ok ys ↔
    (∀ i ∈ imagesAt name es, i.hashable) ∧ ys = addMembers (imagesAt name es) xs := by
  rw [imagesAt, ← foldlM_addIfTruthy_eq_ok, foldlM_map]
  rfl

lemma entriesOf_orElse (v : Value) : entriesOf (v.orElse (.map [])) = entriesOf v := by
  unfold orElse
  split
  · rfl
  · next h =>
    cases v with
    | map es =>
      cases es with
      | nil => rfl
      | cons e es => simp [truthy] at h
    | _ => rfl

def IsSection (v : Value) : Prop := v.truthy = true → v.isMap = true

lemma isSection_iff : IsSection v ↔ v.orElse (.map []) = .map (entriesOf v) := by
  rw [← entriesOf_orElse v]
  unfold IsSection orElse
  cases v.truthy with
  | false => simp [entriesOf]
  | true => cases v <;> simp [isMap, entriesOf]

lemma getOr_eq_ok {name : String} : getOr name (v.orElse (.map [])) = .ok w ↔
    IsSection v ∧ w = (valueAt v [name]).orElse (.map []) := by
  simp only [getOr, except_bind_eq_ok, getOrNull_eq_ok, except_pure_eq_ok, isSection_iff]
  constructor
  · rintro ⟨_, ⟨es, hes, rfl⟩, rfl⟩
    have hentries : entriesOf v = es := by rw [← entriesOf_orElse, hes, entriesOf]
    exact ⟨hentries ▸ hes, by rw [valueAt, hentries, valueAt]⟩
  · rintro ⟨hv, rfl⟩
    exact ⟨_, ⟨_, hv, rfl⟩, rfl⟩

/-! ## Labels -/

/-- The label of a component can be looked up, and what it leads to is a section. -/
def LabelLeads (executors : List (Value × Value)) (c : Value) : Prop :=
  (valueAt c ["executorLabel"]).truthy = true →
    (valueAt c ["executorLabel"]).hashable = true ∧
      ∀ x, Value.lookup (valueAt c ["executorLabel"]) executors = some x → IsSection x

def labelled (executors : List (Value × Value)) (c : Value) : Value :=
  if (valueAt c ["executorLabel"]).truthy then
    valueAt ((Value.lookup (valueAt c ["executorLabel"]) executors).getD .null) ["container", "image"]
  else .null

lemma mem_of_lookup {label : Value} (h : Value.lookup label es = some x) : ∃ k, (k, x) ∈ es := by
  induction es with
  | nil => cases h
  | cons e es ih =>
    obtain ⟨k, y⟩ := e
    rw [Value.lookup] at h
    split at h
    · cases h
      exact ⟨k, mem_cons_self⟩
    · obtain ⟨k', hk'⟩ := ih h
      exact ⟨k', mem_cons_of_mem _ hk'⟩

lemma labelled_mem_imagesAt (h : (labelled es c).truthy) :
    labelled es c ∈ imagesAt "container" es := by
  refine mem_filter.mpr ⟨?_, h⟩
  unfold labelled at h ⊢
  split at h
  · next hlabel =>
    rw [if_pos hlabel]
    cases hx : Value.lookup (valueAt c ["executorLabel"]) es with
    | none =>
      rw [hx] at h
      cases h
    | some x =>
      obtain ⟨k, hk⟩ := mem_of_lookup hx
      exact mem_map.mpr ⟨(k, x), hk, rfl⟩
  · cases h

lemma addLabelled_eq_ok : addLabelled es xs c = .ok ys ↔
    LabelLeads es c ∧ addIfTruthy (labelled es c) xs = .ok ys := by
  have hlabel : (named "executorLabel" (entriesOf c)).getD .null = valueAt c ["executorLabel"] := rfl
  unfold addLabelled LabelLeads labelled
  rw [hlabel]
  generalize valueAt c ["executorLabel"] = label
  cases htruthy : label.truthy with
  | false => simp [htruthy, addIfTruthy, show Value.null.truthy = false from rfl]
  | true =>
    cases hhashable : label.hashable with
    | false => simp [htruthy, hhashable]
    | true =>
      have himage (x : Value) : addImage ((valueAt x ["container"]).orElse (.map [])) xs =
          addIfTruthy (valueAt x ["container", "image"]) xs := by
        rw [addImage, entriesOf_orElse]
        rfl
      simp only [htruthy, hhashable, Bool.not_true, Bool.false_eq_true, if_false, if_true,
        except_bind_eq_ok, getOr_eq_ok, and_assoc, exists_and_left, exists_eq_left, himage,
        forall_const, true_and]
      cases Value.lookup label es with
      | none => simp [show IsSection .null from nofun]
      | some x => simp

lemma foldlM_addLabelled_eq_ok (hes : ∀ i ∈ imagesAt "container" es, i.hashable) :
    cs.foldlM (fun images c => addLabelled es images c.2) xs = .ok ys ↔
      (∀ c ∈ cs, LabelLeads es c.2) ∧
        ys = addMembers ((cs.map fun c => labelled es c.2).filter truthy) xs := by
  induction cs generalizing xs with
  | nil =>
    rw [foldlM_nil, except_pure_eq_ok, eq_comm]
    simp [addMembers]
  | cons c cs ih =>
    rw [foldlM_cons, except_bind_eq_ok, forall_mem_cons, map_cons, filter_cons]
    simp only [addLabelled_eq_ok, ih, addIfTruthy, and_assoc, exists_and_left]
    apply and_congr_right
    intro _
    by_cases htruthy : (labelled es c.2).truthy
    · have hhashable := hes _ (labelled_mem_imagesAt htruthy)
      simp [htruthy, joinSet, hhashable, addMembers]
    · simp [htruthy]

lemma addComponents_eq_ok (hes : ∀ i ∈ imagesAt "container" (entriesOf x), i.hashable) :
    addComponents (x.orElse (.map [])) cs xs = .ok ys ↔
      (IsSection x → ∀ c ∈ cs, LabelLeads (entriesOf x) c.2) ∧
        ys = addMembers ((cs.map fun c => labelled (entriesOf x) c.2).filter truthy) xs := by
  by_cases hx : IsSection x
  · rw [isSection_iff.mp hx, forall_prop_of_true hx, ← foldlM_addLabelled_eq_ok hes]
    rfl
  · have hnone : addComponents (x.orElse (.map [])) cs xs = pure xs ∧ entriesOf x = [] := by
      obtain ⟨htruthy, hmap⟩ := Classical.not_imp.mp hx
      rw [orElse, if_pos htruthy]
      cases x with
      | map => exact absurd rfl hmap
      | _ => exact ⟨rfl, rfl⟩
    have hlabelled (c : Value) : (labelled [] c).truthy = false := by
      unfold labelled
      split <;> rfl
    rw [hnone.1, hnone.2, except_pure_eq_ok, eq_comm]
    simp [hx, filter_map, Function.comp_def, hlabelled, addMembers]

/-! ## Pipelines -/

def labelledImages (v : Value) : List Value :=
  ((mappingAt v ["components"]).map fun c =>
    labelled (mappingAt v ["deploymentSpec", "executors"]) c.2).filter truthy

/-- A pipeline that can be read: the deployment is a section, and if the executors are one too, then
the label of each component leads to a section or nowhere. -/
structure IsReadable (v : Value) : Prop where
  deployment : IsSection (valueAt v ["deploymentSpec"])
  labels : IsSection (valueAt v ["deploymentSpec", "executors"]) →
    ∀ c ∈ mappingAt v ["components"], LabelLeads (mappingAt v ["deploymentSpec", "executors"]) c.2

lemma ofPipeline_eq_ok : ofPipeline (.map es) = .ok images ↔
    (IsReadable (.map es) ∧ ∀ i ∈ pipelineImages (.map es), i.hashable) ∧
      images = addMembers (pipelineImages (.map es) ++ labelledImages (.map es)) [] := by
  have hsteps : ofPipeline (.map es) = (do
      let executors ← getOr "executors" ((valueAt (.map es) ["deploymentSpec"]).orElse (.map []))
      let images ← addAll "container" (entriesOf executors) []
      let images ← addAll "componentRef" (mappingAt (.map es) ["root", "dag", "tasks"]) images
      addComponents executors (mappingAt (.map es) ["components"]) images) := rfl
  rw [hsteps, pipelineImages, forall_mem_append, addMembers_append,
    addMembers_append]
  simp only [except_bind_eq_ok, getOr_eq_ok, addAll_eq_ok]
  constructor
  · rintro ⟨_, ⟨hdeployment, rfl⟩, _, ⟨hexecutors, rfl⟩, _, ⟨htasks, rfl⟩, h⟩
    rw [entriesOf_orElse] at hexecutors h
    obtain ⟨hlabels, rfl⟩ := (addComponents_eq_ok hexecutors).mp h
    exact ⟨⟨⟨hdeployment, hlabels⟩, hexecutors, htasks⟩, rfl⟩
  · rintro ⟨⟨⟨hdeployment, hlabels⟩, hexecutors, htasks⟩, rfl⟩
    refine ⟨_, ⟨hdeployment, rfl⟩, _, ⟨?_, rfl⟩, _, ⟨htasks, rfl⟩, ?_⟩
    · rwa [entriesOf_orElse]
    · rw [entriesOf_orElse]
      exact (addComponents_eq_ok hexecutors).mpr ⟨hlabels, rfl⟩

lemma labelledImages_subset (v : Value) : labelledImages v ⊆ executorImages v := by
  intro i hi
  obtain ⟨hi, htruthy⟩ := mem_filter.mp hi
  obtain ⟨c, -, rfl⟩ := mem_map.mp hi
  exact labelled_mem_imagesAt htruthy

lemma mem_ofPipeline_iff (h : ofPipeline (.map es) = .ok images) :
    i ∈ images ↔ i ∈ addMembers (pipelineImages (.map es)) [] := by
  obtain ⟨-, rfl⟩ := ofPipeline_eq_ok.mp h
  rw [addMembers_append, mem_addMembers_of_isIn]
  intro j hj
  exact isIn_addMembers (mem_append_left _ (labelledImages_subset _ hj)) []

lemma mem_pipelineImages (h : ofPipeline v = .ok images) (hi : i ∈ images) :
    i ∈ pipelineImages v := by
  cases v with
  | map es => exact (mem_of_mem_addMembers ((mem_ofPipeline_iff h).mp hi)).resolve_left nofun
  | _ => cases h

/-- The images that are found in a pipeline are those of its executors and of the tasks at its root,
whatever its components are. -/
theorem ofPipeline_eq_images (h : ofPipeline (.map es) = .ok images) :
    (∀ i ∈ images, i ∈ pipelineImages (.map es)) ∧
      (∀ i ∈ pipelineImages (.map es), i.IsIn images) ∧
      ∀ fs others, Value.named "deploymentSpec" fs = Value.named "deploymentSpec" es →
        Value.named "root" fs = Value.named "root" es → ofPipeline (.map fs) = .ok others →
          ∀ i, i ∈ others ↔ i ∈ images := by
  refine ⟨fun i => mem_pipelineImages h, ?_, ?_⟩
  · intro i hi
    obtain ⟨-, rfl⟩ := ofPipeline_eq_ok.mp h
    exact Value.isIn_addMembers (mem_append_left _ hi) []
  · intro fs others hdeployment hroot hothers i
    have hsame : pipelineImages (.map fs) = pipelineImages (.map es) := by
      simp only [pipelineImages, executorImages, mappingAt, valueAt, entriesOf, hdeployment, hroot]
    rw [mem_ofPipeline_iff hothers, mem_ofPipeline_iff h, hsame]

def labelledPipeline : Value :=
  .map [(.text "deploymentSpec", .map [(.text "executors", .map [(.text "idle", .int 5), (.text "run",
      .map [(.text "container", .map [(.text "image", .text "python:3.11")])])])]),
    (.text "root", .map [(.text "dag", .map [(.text "tasks", .map [(.text "train",
      .map [(.text "componentRef", .map [(.text "image", .text "python:3.12")])])])])]),
    (.text "components", .map [(.text "a", .map [(.text "executorLabel", .text "run")]),
      (.text "b", .map [(.text "executorLabel", .text "gone")])])]

theorem images_of_labelledPipeline :
    ofPipeline labelledPipeline = .ok [.text "python:3.11", .text "python:3.12"] ∧
      ∀ i ∈ pipelineImages labelledPipeline, i.IsIn [.text "python:3.11", .text "python:3.12"] := by
  have h : ofPipeline labelledPipeline = .ok [.text "python:3.11", .text "python:3.12"] := by cbv
  exact ⟨h, (ofPipeline_eq_images h).2.1⟩

/-! ## Platforms -/

lemma ofExecutors_inner_eq_ok : ofExecutors (inner "executors" (inner "deploymentSpec" v)) = .ok xs ↔
    (∀ i ∈ executorImages v, i.hashable) ∧ xs = addMembers (executorImages v) [] := addAll_eq_ok

lemma mem_platformImages (h : ofPlatforms v = .ok images) (hi : i ∈ images) :
    i ∈ platformImages v := by
  have hfound {ps : List (Value × Value)} {xs ys : List Value} (h : ps.foldlM (fun images p => do
      let found ← ofExecutors (inner "executors" (inner "deploymentSpec" p.2))
      pure (addMembers found images)) xs = .ok ys) (hi : i ∈ ys) :
      i ∈ xs ∨ i ∈ ps.flatMap fun p => executorImages p.2 := by
    induction ps generalizing xs with
    | nil =>
      cases h
      exact .inl hi
    | cons p ps ih =>
      rw [foldlM_cons] at h
      obtain ⟨_, hnext, h⟩ := except_bind_eq_ok.mp h
      obtain ⟨_, hfound, ⟨⟩⟩ := except_bind_eq_ok.mp hnext
      obtain ⟨-, rfl⟩ := ofExecutors_inner_eq_ok.mp hfound
      rw [flatMap_cons, mem_append]
      rcases ih h with hi | hi
      · have hmem := mem_of_mem_addMembers hi
        exact hmem.imp_right fun hi => .inl ((mem_of_mem_addMembers hi).resolve_left not_mem_nil)
      · exact .inr (.inr hi)
  exact (hfound h hi).resolve_left nofun

lemma exists_ofPlatforms (h : Value.AreTexts (platformImages v)) :
    ∃ images, ofPlatforms v = .ok images ∧ ∀ i, i ∈ images ↔ i ∈ platformImages v := by
  have hread {ps : List (Value × Value)} (hps : Value.AreTexts (ps.flatMap fun p => executorImages p.2))
      (xs : List Value) : ∃ ys, ps.foldlM (fun images p => do
        let found ← ofExecutors (inner "executors" (inner "deploymentSpec" p.2))
        pure (addMembers found images)) xs = .ok ys ∧
      ∀ i, i ∈ ys ↔ i ∈ xs ∨ i ∈ ps.flatMap fun p => executorImages p.2 := by
    induction ps generalizing xs with
    | nil => exact ⟨xs, rfl, by simp⟩
    | cons p ps ih =>
      rw [flatMap_cons] at hps
      have hp : Value.AreTexts (executorImages p.2) := fun i hi => hps i (mem_append_left _ hi)
      have hmem (i : Value) : i ∈ addMembers (executorImages p.2) [] ↔ i ∈ executorImages p.2 := by
        rw [mem_addMembers_of_areTexts hp]
        simp
      obtain ⟨ys, hys, hin⟩ := ih (fun i hi => hps i (mem_append_right _ hi))
        (addMembers (addMembers (executorImages p.2) []) xs)
      refine ⟨ys, ?_, fun i => ?_⟩
      · rw [foldlM_cons, ofExecutors_inner_eq_ok.mpr ⟨hp.hashable, rfl⟩]
        exact hys
      · rw [hin, mem_addMembers_of_areTexts fun i hi => hp i ((hmem i).mp hi), hmem,
          flatMap_cons, mem_append, or_assoc]
  obtain ⟨images, himages, hmem⟩ := hread h []
  exact ⟨images, himages, fun i => (hmem i).trans (or_iff_right nofun)⟩

/-- A pipeline whose images are texts can be read exactly if its sections are sections, while platforms
with such images always can. -/
theorem exists_images_iff_isReadable (hes : Value.AreTexts (pipelineImages (.map es)))
    (hv : Value.AreTexts (platformImages v)) :
    ((∃ images, ofPipeline (.map es) = .ok images) ↔ IsReadable (.map es)) ∧
      ∃ images, ofPlatforms v = .ok images ∧ ∀ i, i ∈ images ↔ i ∈ platformImages v := by
  refine ⟨⟨?_, ?_⟩, exists_ofPlatforms hv⟩
  · rintro ⟨images, h⟩
    exact (ofPipeline_eq_ok.mp h).1.1
  · intro hreadable
    exact ⟨_, ofPipeline_eq_ok.mpr ⟨⟨hreadable, hes.hashable⟩, rfl⟩⟩

def strayDeployment : Value :=
  .map [(.text "deploymentSpec", .text "local"), (.text "root", .map [(.text "dag", .map [(.text "tasks",
    .map [(.text "train", .map [(.text "componentRef", .map [(.text "image", .text "python:3.12")])])])])])]

def strayPlatforms : Value := .map [(.text "platforms", .map [(.text "local", strayDeployment)])]

theorem exists_images_of_labelledPipeline :
    IsReadable labelledPipeline ∧ ∃ images, ofPlatforms strayPlatforms = .ok images := by
  have hes : Value.AreTexts (pipelineImages labelledPipeline) := by
    rw [show pipelineImages labelledPipeline = [.text "python:3.11", .text "python:3.12"] by cbv]
    simp [Value.AreTexts]
  have hv : Value.AreTexts (platformImages strayPlatforms) := by
    rw [show platformImages strayPlatforms = [] by cbv]
    simp [Value.AreTexts]
  obtain ⟨hread, images, himages, -⟩ := exists_images_iff_isReadable hes hv
  exact ⟨hread.mp ⟨[.text "python:3.11", .text "python:3.12"], by cbv⟩, images, himages⟩

/-- A deployment that is a text is refused in a pipeline, and passed over in platforms. -/
theorem strayDeployment_refused : pipelineImages strayDeployment = [.text "python:3.12"] ∧
      ofPipeline strayDeployment = .error (.noMember "'str' object has no attribute 'get'") ∧
      ofPlatforms strayPlatforms = .ok [] := ⟨by cbv, by cbv, by cbv⟩

end Image

end AssetCatalog
