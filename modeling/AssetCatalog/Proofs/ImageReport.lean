import AssetCatalog.Image.Report
import AssetCatalog.Proofs.CompiledImages
import AssetCatalog.Proofs.PermittedImages
import AssetCatalog.Proofs.Run

/-!
# The report on base images

It passes exactly if every asset can be processed and names permitted images only.
-/

namespace AssetCatalog

open List Value

variable {r : Nat × Nat × List Value}

namespace Run

variable {α β : Type} {site : Site}

/-- From every world an operation gives a value of a kind, and all it does is to print. -/
def Prints (site : Site) (x : Run α) (P : α → Prop) : Prop :=
  ∀ w, ∃ a ls, x site w = (.ok a, w.printed ls) ∧ P a

namespace Prints

variable {P : α → Prop} {Q : β → Prop}

lemma pure {a : α} (h : P a) : Prints site (Pure.pure a) P := fun w => ⟨a, [], by simp, h⟩

lemma print (s : String) : Prints site (Run.print s) fun _ => True :=
  fun w => ⟨(), [s], print_apply site w s, trivial⟩

lemma printAll (ls : List String) : Prints site (Run.printAll ls) fun _ => True :=
  fun w => ⟨(), ls, printAll_apply site w ls, trivial⟩

lemma bind {x : Run α} {f : α → Run β} (hx : Prints site x P) (hf : ∀ a, P a → Prints site (f a) Q) :
    Prints site (x >>= f) Q := by
  intro w
  obtain ⟨a, ls, hxa, ha⟩ := hx w
  obtain ⟨b, ms, hfb, hb⟩ := hf a ha (w.printed ls)
  exact ⟨b, ls ++ ms, by rw [bind_of_eq hxa, hfb, World.printed_printed], hb⟩

lemma mono {x : Run α} {P' : α → Prop} (hx : Prints site x P) (h : ∀ a, P a → P' a) :
    Prints site x P' := by
  intro w
  obtain ⟨a, ls, hxa, ha⟩ := hx w
  exact ⟨a, ls, hxa, h a ha⟩

lemma read_bind {f : Site → Run β} (hf : Prints site (f site) Q) : Prints site (read >>= f) Q :=
  bind (P := (· = site)) (fun w => ⟨site, [], by simp, rfl⟩) fun _ h => h ▸ hf

lemma ite {c : Prop} [Decidable c] {x y : Run α} (hx : Prints site x P) (hy : Prints site y P) :
    Prints site (if c then x else y) P := by
  split
  · exact hx
  · exact hy

lemma forM {f : α → Run Unit} (hf : ∀ a, Prints site (f a) fun _ => True) (xs : List α) :
    Prints site (xs.forM f) fun _ => True := by
  induction xs with
  | nil => exact pure trivial
  | cons a as ih => exact (hf a).bind fun _ _ => ih

lemma printAll_bind (ls : List String) {y : Run α} (hy : Prints site y P) (w : World) :
    ∃ a rest, (Run.printAll ls >>= fun _ => y) site w = (.ok a, w.printed (ls ++ rest)) ∧ P a := by
  obtain ⟨a, rest, hrun, ha⟩ := hy (w.printed ls)
  exact ⟨a, rest, by rw [bind_of_eq (printAll_apply site w ls), hrun, World.printed_printed], ha⟩

lemma mapM {f : α → Run β} {R : α → β → Prop} {xs : List α} (h : ∀ a ∈ xs, Prints site (f a) (R a)) :
    Prints site (xs.mapM f) (List.Forall₂ R xs) := by
  induction xs with
  | nil => exact pure .nil
  | cons a as ih =>
    obtain ⟨ha, has⟩ := forall_mem_cons.mp h
    rw [mapM_cons]
    apply ha.bind
    intro b hb
    apply (ih has).bind
    intro bs hbs
    exact pure (.cons hb hbs)

end Prints

end Run

namespace Image

open Run

variable {site : Site}
variable {allowlist : Allowlist} {images xs ys : List Value} {x : String × Asset}

/-! ## The images of compiled members -/

def memberImages (scratch : Path) (moduleName : String) (m : Member) : Except Fault (List Value) := do
  ofCompiled (← m.specification s!"{scratch.text}/{moduleName}_{m.name}.yaml")

def namedBy (scratch : Path) (moduleName : String) (ms : List Member) : List Value :=
  ms.flatMap fun m => (memberImages scratch moduleName m).toOption.getD []

def AllNamed (scratch : Path) (moduleName : String) (ms : List Member) : Prop :=
  ∀ m ∈ ms, ∃ images, memberImages scratch moduleName m = .ok images

variable {scratch : Path} {moduleName : String} {m : Member} {ms : List Member}

lemma mem_namedBy_iff {i : Value} : i ∈ namedBy scratch moduleName ms ↔
      ∃ m ∈ ms, ∃ images, memberImages scratch moduleName m = .ok images ∧ i ∈ images := by
  rw [namedBy, mem_flatMap]
  apply exists_congr
  intro m
  apply and_congr_right
  rcases memberImages scratch moduleName m with e | images
  · simp [Except.toOption]
  · simp [Except.toOption]

/-- What compiling members adds to the counts of those that compile and of those that fail, and to the
images. -/
structure Compiled (scratch : Path) (moduleName : String) (ms : List Member) (good bad : Nat)
    (images : List Value) (r : Nat × Nat × List Value) : Prop where
  bad_le : bad ≤ r.2.1
  bad_eq_iff : r.2.1 = bad ↔ AllNamed scratch moduleName ms
  good_eq : AllNamed scratch moduleName ms → r.1 = good + ms.length
  images_eq : r.2.2 = (namedBy scratch moduleName ms).foldl (fun acc i => addMember i acc) images

lemma Compiled.cons_of_error {good good' bad : Nat} {e : Fault}
    (hm : memberImages scratch moduleName m = .error e)
    (h : Compiled scratch moduleName ms good' (bad + 1) images r) :
    Compiled scratch moduleName (m :: ms) good bad images r := by
  have hnot : ¬AllNamed scratch moduleName (m :: ms) := by simp [AllNamed, hm]
  -- One more failure was counted before the rest, so the count is not what it was.
  have hle := h.bad_le
  refine ⟨by omega, ⟨fun heq => by omega, fun hall => absurd hall hnot⟩, fun hall => absurd hall hnot, ?_⟩
  rw [h.images_eq]
  simp [namedBy, hm, Except.toOption]

lemma Compiled.cons_of_ok {good bad : Nat} {found : List Value}
    (hm : memberImages scratch moduleName m = .ok found)
    (h : Compiled scratch moduleName ms (good + 1) bad
      (found.foldl (fun acc i => addMember i acc) images) r) :
    Compiled scratch moduleName (m :: ms) good bad images r := by
  have hall : AllNamed scratch moduleName (m :: ms) ↔ AllNamed scratch moduleName ms := by
    simp [AllNamed, hm]
  refine ⟨h.bad_le, h.bad_eq_iff.trans hall.symm, ?_, ?_⟩
  · intro hnamed
    rw [h.good_eq (hall.mp hnamed), length_cons]
    omega
  · rw [h.images_eq, ← foldl_append]
    simp [namedBy, hm, Except.toOption]

lemma compileAll_prints (scratch : Path) (moduleName : String) (ms : List Member) (good bad : Nat)
    (images : List Value) :
    Prints site (compileAll scratch moduleName ms (good, bad, images))
      (Compiled scratch moduleName ms good bad images) := by
  induction ms generalizing good bad images with
  | nil => exact .pure ⟨le_rfl, by simp [AllNamed], by simp, rfl⟩
  | cons m ms ih =>
    rw [compileAll]
    rcases hspec : m.specification s!"{scratch.text}/{moduleName}_{m.name}.yaml" with e | spec
    · have hm : memberImages scratch moduleName m = .error e := by
        rw [memberImages, hspec]
        rfl
      exact (Prints.print _).bind fun _ _ => (ih good (bad + 1) images).mono fun _ => .cons_of_error hm
    · have hm : memberImages scratch moduleName m = ofCompiled spec := by
        rw [memberImages, hspec, except_ok_bind]
      dsimp only
      rcases hfound : ofCompiled spec with e | found
      · exact (Prints.print _).bind fun _ _ => (ih (good + 1) (bad + 1) images).mono fun _ =>
          .cons_of_error (hm.trans hfound)
      · exact (ih (good + 1) bad _).mono fun _ => .cons_of_ok (hm.trans hfound)

/-! ## Named images are set -/

def AllTruthy (xs : List Value) : Prop := ∀ x ∈ xs, x.truthy = true

lemma allTruthy_pipelineImages (v : Value) : AllTruthy (pipelineImages v) := by
  intro i hi
  rcases mem_append.mp hi with hi | hi
  · exact (mem_filter.mp hi).2
  · exact (mem_filter.mp hi).2

lemma allTruthy_platformImages (v : Value) : AllTruthy (platformImages v) := by
  intro i hi
  obtain ⟨p, -, hi⟩ := mem_flatMap.mp hi
  exact (mem_filter.mp hi).2

lemma AllTruthy.of_ofCompiled {result : Value} (h : ofCompiled result = .ok xs) :
    AllTruthy xs := by
  intro i hi
  unfold ofCompiled at h
  split at h
  · split at h
    · obtain ⟨images, himages, h⟩ := except_bind_eq_ok.mp h
      obtain ⟨more, hmore, h⟩ := except_bind_eq_ok.mp h
      cases h
      rcases mem_of_mem_addMembers hi with hi | hi
      · exact allTruthy_pipelineImages _ i (mem_pipelineImages himages hi)
      · exact allTruthy_platformImages _ i (mem_platformImages hmore hi)
    · exact allTruthy_pipelineImages _ i (mem_pipelineImages h hi)
  · cases h
    cases hi

lemma AllTruthy.of_memberImages (h : memberImages scratch moduleName m = .ok xs) :
    AllTruthy xs := by
  obtain ⟨spec, -, h⟩ := except_bind_eq_ok.mp h
  exact AllTruthy.of_ofCompiled h

/-! ## One asset -/

def functionsOf (site : Site) (x : String × Asset) : Except Fault (List Member) :=
  (Run.imported site (Run.moduleKey site x.2.path)).map (Asset.membersOfType x.1)

def imagesOf (site : Site) (x : String × Asset) (m : Member) : Except Fault (List Value) :=
  memberImages site.scratch s!"{x.2.category}_{x.2.name}_{x.1}" m

/-- An asset of a type that loads, has functions, and whose functions compile and tell their images. -/
def Processed (site : Site) (x : String × Asset) : Prop :=
  ∃ ms, functionsOf site x = .ok ms ∧ ms ≠ [] ∧ ∀ m ∈ ms, ∃ images, imagesOf site x m = .ok images

def Extracted (site : Site) (x : String × Asset) (i : Value) : Prop :=
  ∃ ms, functionsOf site x = .ok ms ∧ ∃ m ∈ ms, ∃ images, imagesOf site x m = .ok images ∧ i ∈ images

/-- What a result says about its asset. -/
structure Describes (site : Site) (allowlist : Allowlist) (x : String × Asset) (r : AssetImages) :
    Prop where
  asset : r.type = x.1 ∧ r.category = x.2.category ∧ r.name = x.2.name ∧ r.path = x.2.path.text
  errors : r.errors = [] ↔ Processed site x
  images : ∀ i, i ∈ r.images ↔ Extracted site x i
  invalid : ∀ i, i ∈ r.invalid ↔ ∃ s, i = .text s ∧ Extracted site x i ∧ allowlist.permits s = false
  nodup : r.invalid.Nodup

lemma describes_of_error (message : String) (hprocessed : ¬Processed site x)
    (hextracted : ∀ i, ¬Extracted site x i) :
    Describes site allowlist x
      { category := x.2.category, name := x.2.name, type := x.1, path := x.2.path.text,
        errors := [message] } := by
  refine ⟨⟨rfl, rfl, rfl, rfl⟩, ?_, ?_, ?_, nodup_nil⟩
  · simp [hprocessed]
  · simp [hextracted]
  · simp [hextracted]

lemma nodup_foldl_addMember {names : List String} (h : xs.Nodup) :
    ((names.map Value.text).foldl (fun acc i => addMember i acc) xs).Nodup := by
  induction names generalizing xs with
  | nil => exact h
  | cons s names ih =>
    apply ih
    dsimp only [addMember]
    split
    · exact h
    · next hs =>
      rw [any_sameMember_text_iff] at hs
      exact nodup_append.mpr ⟨h, nodup_singleton _, by grind⟩

lemma exists_invalidOf (a : Allowlist) (htexts : Value.AreTexts xs) (htruthy : AllTruthy xs) :
    ∃ ys, invalidOf (some a) xs = .ok ys ∧ ys.Sublist xs ∧
      ∀ i, i ∈ ys ↔ ∃ s, i = .text s ∧ i ∈ xs ∧ a.permits s = false := by
  obtain ⟨names, rfl⟩ := htexts.exists_names
  refine ⟨_, invalidOf_texts a names, filter_sublist.map _, fun i => ?_⟩
  simp only [mem_map, mem_filter]
  constructor
  · rintro ⟨s, ⟨hs, hrefused⟩, rfl⟩
    exact ⟨s, rfl, ⟨s, hs, rfl⟩, (by simpa using hrefused : ¬ s = "" ∧ _).2⟩
  · rintro ⟨s, rfl, hs, hpermits⟩
    have hne : s.isEmpty = false := by simpa [truthy] using htruthy _ (mem_map.mpr hs)
    obtain ⟨_, hs, ⟨⟩⟩ := hs
    exact ⟨s, ⟨hs, by rw [hne, hpermits]; rfl⟩, rfl⟩

def HasTextImages (site : Site) (x : String × Asset) : Prop := ∀ i, Extracted site x i → ∃ s, i = .text s

lemma gather_texts (h : Value.AreTexts xs) :
    (∀ i, i ∈ xs.foldl (fun acc i => addMember i acc) [] ↔ i ∈ xs) ∧
      (xs.foldl (fun acc i => addMember i acc) []).Nodup := by
  obtain ⟨names, rfl⟩ := h.exists_names
  refine ⟨fun i => ?_, nodup_foldl_addMember nodup_nil⟩
  exact (mem_addMembers_of_areTexts h).trans (or_iff_right not_mem_nil)

lemma mem_namedBy_iff_extracted (hms : functionsOf site x = .ok ms) (i : Value) :
    i ∈ namedBy site.scratch s!"{x.2.category}_{x.2.name}_{x.1}" ms ↔ Extracted site x i := by
  rw [mem_namedBy_iff]
  constructor
  · intro h
    exact ⟨ms, hms, h⟩
  · rintro ⟨ms', hms', h⟩
    cases hms.symm.trans hms'
    exact h

lemma processed_iff_allNamed (hms : functionsOf site x = .ok ms) (hne : ms ≠ []) :
    Processed site x ↔ AllNamed site.scratch s!"{x.2.category}_{x.2.name}_{x.1}" ms := by
  constructor
  · rintro ⟨ms', hms', -, h⟩
    cases hms.symm.trans hms'
    exact h
  · intro h
    exact ⟨ms, hms, hne, h⟩

lemma describes_of_compiled (allowlist : Allowlist)
    (htexts : HasTextImages site x) (hms : functionsOf site x = .ok ms) (hne : ms ≠ [])
    (hr : Compiled site.scratch s!"{x.2.category}_{x.2.name}_{x.1}" ms 0 0 [] r) :
    ∃ invalid images, invalidOf (some allowlist) r.2.2 = .ok invalid ∧ sorted r.2.2 = .ok images ∧
      ∀ errors, (errors = [] ↔ r.1 ≠ 0 ∧ r.2.1 = 0) → Describes site allowlist x
        { category := x.2.category, name := x.2.name, type := x.1, path := x.2.path.text, images,
          invalid := sortMembers invalid, errors, compiled := r.1 ≠ 0 } := by
  have hextracted := mem_namedBy_iff_extracted hms
  obtain ⟨hmem, hnodup⟩ := gather_texts fun i hi => htexts i ((hextracted i).mp hi)
  rw [← hr.images_eq] at hmem hnodup
  have hall (i : Value) : i ∈ r.2.2 ↔ Extracted site x i := (hmem i).trans (hextracted i)
  have hareTexts : Value.AreTexts r.2.2 := fun i hi => htexts i ((hall i).mp hi)
  have htruthy : AllTruthy r.2.2 := by
    intro i hi
    obtain ⟨_, -, m, -, images, himages, hi⟩ := (hall i).mp hi
    exact AllTruthy.of_memberImages himages i hi
  obtain ⟨invalid, hinvalid, hsublist, hrefused⟩ := exists_invalidOf allowlist hareTexts htruthy
  obtain ⟨images, himages⟩ := exists_sorted hareTexts
  have hperm := sorted_perm himages
  refine ⟨invalid, images, hinvalid, himages, fun errors herrors =>
    ⟨⟨rfl, rfl, rfl, rfl⟩, ?_, ?_, ?_, ?_⟩⟩
  · rw [herrors, processed_iff_allNamed hms hne, ← hr.bad_eq_iff]
    apply and_iff_right_of_imp
    intro hbad
    rw [hr.good_eq (hr.bad_eq_iff.mp hbad), zero_add, ne_eq, length_eq_zero_iff]
    exact hne
  · intro i
    rw [hperm.mem_iff, hall]
  · intro i
    simp only [sortMembers, mem_mergeSort, hrefused, hall]
  · exact (mergeSort_perm invalid _).nodup_iff.mpr (hsublist.nodup hnodup)

lemma errors_eq_nil_iff (good bad : Nat) (e e' : String) :
    (if good = 0 then [e] else if bad ≠ 0 then [e'] else []) = [] ↔ good ≠ 0 ∧ bad = 0 := by
  by_cases hgood : good = 0
  · simp [hgood]
  · by_cases hbad : bad = 0 <;> simp [hgood]

lemma assetImages_prints (htexts : HasTextImages site x) :
    Prints site (assetImages x.2 x.2.path x.1 allowlist) (Describes site allowlist x) := by
  apply Prints.read_bind
  have hload : Prints site (attempt (loadModule x.2.path))
      (· = imported site (moduleKey site x.2.path)) := by
    intro w
    exact ⟨_, [], by rw [attempt_apply, loadModule_apply, World.printed_nil], rfl⟩
  apply hload.bind
  intro loaded hloaded
  rcases hmembers : imported site (moduleKey site x.2.path) with e | members
  · rw [hloaded, hmembers]
    have hnone (ms : List Member) : functionsOf site x ≠ .ok ms := by
      simp [functionsOf, hmembers, Except.map]
    exact .pure (describes_of_error _ (fun ⟨ms, h, _⟩ => hnone ms h) fun _ ⟨ms, h, _⟩ => hnone ms h)
  · rw [hloaded, hmembers]
    have hfunctions : functionsOf site x = .ok (Asset.membersOfType x.1 members) := by
      rw [functionsOf, hmembers]
      rfl
    dsimp only
    generalize Asset.membersOfType x.1 members = ms at hfunctions ⊢
    split
    · next hempty =>
      rw [List.isEmpty_iff] at hempty
      rw [hempty] at hfunctions
      apply Prints.pure
      apply describes_of_error
      · rintro ⟨ms', h, hne, -⟩
        cases hfunctions.symm.trans h
        exact hne rfl
      · rintro i ⟨ms', h, m, hm, -⟩
        cases hfunctions.symm.trans h
        cases hm
    · next hempty =>
      rw [List.isEmpty_iff] at hempty
      apply (compileAll_prints site.scratch _ ms 0 0 []).bind
      intro r hr
      obtain ⟨invalid, images, hinvalid, himages, hdescribes⟩ :=
        describes_of_compiled allowlist htexts hfunctions hempty hr
      rw [hinvalid, himages]
      exact .pure (hdescribes _ (errors_eq_nil_iff r.1 r.2.1 _ _))

/-! ## All assets -/

/-- The assets of a selection with their types, in the order in which they are worked on. -/
def Selection.assets (s : Selection) : List (String × Asset) :=
  s.components.map (("component", ·)) ++ s.pipelines.map (("pipeline", ·))

lemma printAssetImages_prints (r : AssetImages) : Prints site (printAssetImages r) fun _ => True := by
  apply Prints.ite
  · exact .forM (fun e => .print _) r.errors
  · apply Prints.ite
    · exact .forM (fun i => .print _) r.images
    · exact .ite (.print _) (.pure trivial)

lemma process_prints (htexts : HasTextImages site x) :
    Prints site (process x.2 x.1 allowlist) (Describes site allowlist x) := by
  apply (Prints.print _).bind
  intro _ _
  apply (assetImages_prints htexts).bind
  intro r hr
  exact (printAssetImages_prints r).bind fun _ _ => .pure hr

lemma processAll_prints {assets : List Asset} {type : String} (label : String)
    (htexts : ∀ a ∈ assets, HasTextImages site (type, a)) :
    Prints site (processAll assets type label allowlist)
      (List.Forall₂ (Describes site allowlist) (assets.map ((type, ·)))) := by
  rw [processAll]
  split
  · next hempty =>
    rw [isEmpty_iff.mp hempty]
    exact .pure .nil
  · apply (Prints.printAll _).bind
    intro _ _
    apply (Prints.mapM fun a ha => process_prints (htexts a ha)).bind
    intro results hresults
    exact (Prints.print _).bind fun _ _ => .pure (forall₂_map_left_iff.mpr hresults)

lemma processSelection_prints {s : Selection} (htexts : ∀ x ∈ s.assets, HasTextImages site x) :
    Prints site (processSelection s) (List.Forall₂ (Describes site s.allowlist) s.assets) := by
  have hcomponents : ∀ a ∈ s.components, HasTextImages site ("component", a) := fun a ha =>
    htexts _ (mem_append_left _ (mem_map_of_mem ha))
  have hpipelines : ∀ a ∈ s.pipelines, HasTextImages site ("pipeline", a) := fun a ha =>
    htexts _ (mem_append_right _ (mem_map_of_mem ha))
  apply (processAll_prints "Components" hcomponents).bind
  intro first hfirst
  apply (processAll_prints "Pipelines" hpipelines).bind
  intro second hsecond
  exact .pure (rel_append hfirst hsecond)

/-! ## The summary -/

lemma printImages_prints (total failed : Nat) (himages : Value.AreTexts images)
    (invalid : List Value) :
    Prints site (printImages total failed images invalid) fun _ => True := by
  obtain ⟨sorted, hsorted⟩ := exists_sorted himages
  apply Prints.ite
  · apply (Prints.print _).bind
    intro _ _
    rw [hsorted]
    exact .forM (fun i => .print _) sorted
  · exact .ite (.pure trivial) (.ite (.print _) (.print _))

lemma printVerdict_prints (total failed violations : Nat) (place : String) :
    Prints site (printVerdict total failed violations place) fun status =>
      (status = 0 ∨ status = 1) ∧ (status = 0 ↔ total = 0 ∨ violations = 0 ∧ failed = 0) := by
  rw [printVerdict]
  split
  · next htotal => exact (Prints.printAll _).bind fun _ _ => .pure (by simp [htotal])
  · next htotal =>
    split
    · next hviolations =>
      exact (Prints.printAll _).bind fun _ _ => .pure (by simp; omega)
    · next hviolations =>
      split
      · next hfailed => exact (Prints.print _).bind fun _ _ => .pure (by simp; omega)
      · next hfailed => exact (Prints.print _).bind fun _ _ => .pure (by simp; omega)

lemma summary_clean_iff (results : List AssetImages) :
    (results.length = 0 ∨ (violations results).length = 0 ∧
      (results.filter fun r => !r.errors.isEmpty).length = 0) ↔
        ∀ r ∈ results, r.errors = [] ∧ r.invalid = [] := by
  have hviolations : (violations results).length = 0 ↔ ∀ r ∈ results, r.invalid = [] := by
    rw [length_eq_zero_iff]
    simp [violations]
  have hfailed : (results.filter fun r => !r.errors.isEmpty).length = 0 ↔ ∀ r ∈ results, r.errors = [] := by
    simp
  rw [hviolations, hfailed, length_eq_zero_iff]
  constructor
  · rintro (rfl | ⟨hinvalid, herrors⟩) r hr
    · cases hr
    · exact ⟨herrors r hr, hinvalid r hr⟩
  · intro h
    exact .inr ⟨fun r hr => (h r hr).2, fun r hr => (h r hr).1⟩

lemma printImageSummary_apply (results : List AssetImages) (himages : Value.AreTexts images)
    (place : String) (w : World) :
    ∃ status rest, printImageSummary results images place site w =
        (.ok status, w.printed (violationsListed (violations results) place ++ rest)) ∧
      (status = 0 ∨ status = 1) ∧ (status = 0 ↔ ∀ r ∈ results, r.errors = [] ∧ r.invalid = []) := by
  rw [← summary_clean_iff]
  apply Prints.printAll_bind
  apply (Prints.printAll _).bind
  intro _ _
  apply (printImages_prints _ _ himages _).bind
  intro _ _
  apply (Prints.print _).bind
  intro _ _
  exact printVerdict_prints _ _ _ _

/-- An asset that is processed in full and names permitted images only. -/
def Passes (site : Site) (allowlist : Allowlist) (x : String × Asset) : Prop :=
  Processed site x ∧ ∀ i, Extracted site x i → ∃ t, i = .text t ∧ allowlist.permits t = true

lemma Describes.clean_iff {r : AssetImages} (h : Describes site allowlist x r)
    (htexts : HasTextImages site x) : r.errors = [] ∧ r.invalid = [] ↔ Passes site allowlist x := by
  rw [h.errors, eq_nil_iff_forall_not_mem, Passes]
  apply and_congr_right
  intro _
  apply forall_congr'
  intro i
  rw [h.invalid]
  constructor
  · intro hnot hi
    obtain ⟨t, rfl⟩ := htexts i hi
    by_contra hrefused
    exact hnot ⟨t, rfl, hi, by simpa using hrefused⟩
  · rintro hpermitted ⟨t, rfl, hi, hrefused⟩
    obtain ⟨_, ⟨⟩, hpermits⟩ := hpermitted hi
    rw [hrefused] at hpermits
    cases hpermits

lemma clean_iff_of_describes {xs : List (String × Asset)} {rs : List AssetImages}
    (h : List.Forall₂ (Describes site allowlist) xs rs) (htexts : ∀ x ∈ xs, HasTextImages site x) :
    (∀ r ∈ rs, r.errors = [] ∧ r.invalid = []) ↔ ∀ x ∈ xs, Passes site allowlist x := by
  induction h with
  | nil => simp
  | cons hx _ ih =>
    obtain ⟨hfirst, hrest⟩ := forall_mem_cons.mp htexts
    rw [forall_mem_cons, forall_mem_cons, hx.clean_iff hfirst, ih hrest]

lemma areTexts_of_describes {xs : List (String × Asset)} {rs : List AssetImages}
    (h : List.Forall₂ (Describes site allowlist) xs rs) (htexts : ∀ x ∈ xs, HasTextImages site x) :
    Value.AreTexts (rs.flatMap AssetImages.images) := by
  induction h with
  | nil => simp [Value.AreTexts]
  | cons hx _ ih =>
    obtain ⟨hfirst, hrest⟩ := forall_mem_cons.mp htexts
    exact Value.AreTexts.append (fun i hi => hfirst i ((hx.images i).mp hi)) (ih hrest)

def isText : Value → Bool
  | .text _ => true
  | _ => false

lemma hasTextImages_of_all (h : ((functionsOf site x).toOption.all fun ms =>
    ms.all fun m => (imagesOf site x m).toOption.all fun images => images.all isText)) :
    HasTextImages site x := by
  rintro i ⟨ms, hms, m, hm, images, himages, hi⟩
  rw [hms, Except.toOption, Option.all_some, all_eq_true] at h
  have himage := h m hm
  rw [himages, Except.toOption, Option.all_some, all_eq_true] at himage
  have htext := himage i hi
  cases i with
  | text s => exact ⟨s, rfl⟩
  | _ => cases htext

def dataAsset (folder name file : String) : Asset where
  path := ⟨"/", [folder, "data", name, file]⟩
  category := "data"
  name := name

def compiledWith (image : String) : String :=
  "deploymentSpec:\n  executors:\n    run:\n      container:\n        image: " ++ image ++ "\n"

def pairSelection (images : List String) : Selection where
  allowlist := { images }
  place := ⟨"", ["allowlist.yaml"]⟩
  components := [dataAsset "components" "load" "component.py"]
  pipelines := [dataAsset "pipelines" "parse" "pipeline.py"]

def pairSite : Site :=
  { rootSite with
    modules :=
      [ ("components/data/load/component.py",
          .members [{ name := "load", componentSpec := true, compiled := compiledWith "python:3.11" }]),
        ("pipelines/data/parse/pipeline.py",
          .members [{ name := "parse", pipelineSpec := true, compiled := compiledWith "python:3.12" }])] }

end Image

end AssetCatalog
