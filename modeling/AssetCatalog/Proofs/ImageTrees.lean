import AssetCatalog.Asset.Decorator
import AssetCatalog.Proofs.Fault
import AssetCatalog.Proofs.SourcePlaces

/-!
# Images in trees

A change of literals at the places of images is a replacement of these images.
-/

namespace AssetCatalog.Source

variable {ks : List (Option String × Expr)} {e : Expr} {p : Path}

/-! ## Changes that do not matter -/

open Located

/-- A change that is made to no literal of a tree leaves the tree as it is. -/
def Steady {α : Type} [Located α] (σ : Change) (a : α) : Prop :=
  (∀ s ∈ spans a, σ s = none) → forget σ a = forget unchanged a

namespace Steady

variable {α β γ δ : Type} [Located α] [Located β] [Located γ] [Located δ] {σ : Change} {a : α} {b : β}

lemma of_literalless {α : Type} [Literalless α] (a : α) : Steady σ a := fun _ => by
  rw [Literalless.forget_eq, Literalless.forget_eq]

lemma list {as : List α} (h : ∀ a ∈ as, Steady σ a) : Steady σ as :=
  fun hnone => List.map_congr_left fun a ha => h a ha fun s hs => hnone s (List.mem_flatMap.mpr ⟨a, ha, hs⟩)

lemma prod (ha : Steady σ a) (hb : Steady σ b) : Steady σ (a, b) := by
  intro hnone
  rw [spans_prod, List.forall_mem_append] at hnone
  exact Prod.ext (ha hnone.1) (hb hnone.2)

lemma one {c : α → β} (h : Steady σ a) (hspans : spans (c a) = spans a := by simp)
    (hforget : ∀ σ, forget σ (c a) = c (forget σ a) := by simp) : Steady σ (c a) := by
  intro hnone
  rw [hspans] at hnone
  rw [hforget, hforget, h hnone]

lemma two {c : α → β → γ} (ha : Steady σ a) (hb : Steady σ b)
    (hspans : spans (c a b) = spans a ++ spans b := by simp)
    (hforget : ∀ σ, forget σ (c a b) = c (forget σ a) (forget σ b) := by simp) : Steady σ (c a b) :=
  .one (c := fun p : α × β => c p.1 p.2) (ha.prod hb) hspans hforget

lemma three {c : α → β → γ → δ} {e : γ} (ha : Steady σ a) (hb : Steady σ b) (he : Steady σ e)
    (hspans : spans (c a b e) = spans a ++ spans b ++ spans e := by simp)
    (hforget : ∀ σ, forget σ (c a b e) = c (forget σ a) (forget σ b) (forget σ e) := by simp) :
    Steady σ (c a b e) :=
  .two (c := fun p : α × β => c p.1 p.2) (ha.prod hb) he hspans hforget

end Steady

open Steady

mutual

theorem Expr.steady (σ : Change) : ∀ e : Expr, Steady σ e
  | .name _ | .joined _ => fun _ => by simp
  | .constant v m s => fun h => by
    have hs : σ s = none := h s (by simp)
    simp [Change.value, hs, unchanged]
  | .tuple es | .list es | .set es | .conjunction es | .disjunction es => one (list fun e _ => e.steady σ)
  | .dict es => one (list fun e _ => prod (steadyOption σ e.1) (e.2.steady σ))
  | .unary o e => two (of_literalless o) (e.steady σ)
  | .attribute e n => two (e.steady σ) (of_literalless n)
  | .starred e | .await e | .yieldFrom e => one (e.steady σ)
  | .binary a o b => three (a.steady σ) (of_literalless o) (b.steady σ)
  | .subscript a b | .assigned a b => two (a.steady σ) (b.steady σ)
  | .compare a rest => two (a.steady σ) (list fun e _ => prod (of_literalless e.1) (e.2.steady σ))
  | .conditional a b c => three (a.steady σ) (b.steady σ) (c.steady σ)
  | .lambda ps b => two (ps.steady σ) (b.steady σ)
  | .slice a b c => three (steadyOption σ a) (steadyOption σ b) (steadyOption σ c)
  | .call f as ks => three (f.steady σ) (list fun e _ => e.steady σ)
      (list fun e _ => prod (of_literalless e.1) (e.2.steady σ))
  | .yield e => one (steadyOption σ e)
  | .listOf e cs | .setOf e cs | .generator e cs => two (e.steady σ) (list fun c _ => c.steady σ)
  | .dictOf k v cs => three (k.steady σ) (v.steady σ) (list fun c _ => c.steady σ)
termination_by e => sizeOf e
decreasing_by
  all_goals simp_wf
  all_goals try omega
  all_goals first
    | (have hsize := List.sizeOf_lt_of_mem ‹_ ∈ _›; omega)
    | (have hsize := sizeOf_entry_lt ‹_ ∈ _›; omega)

theorem steadyOption (σ : Change) : ∀ e : Option Expr, Steady σ e
  | none => fun _ => rfl
  | some e => one (e.steady σ)
termination_by e => sizeOf e

theorem Clause.steady (σ : Change) : ∀ c : Clause, Steady σ c
  | .mk a t s cs => three (c := Clause.mk a) (t.steady σ) (s.steady σ) (list fun e _ => e.steady σ)
termination_by c => sizeOf c

theorem Parameter.steady (σ : Change) : ∀ p : Parameter, Steady σ p
  | .mk n h d => three (of_literalless n) (steadyOption σ h) (steadyOption σ d)
termination_by p => sizeOf p

theorem steadyParameter (σ : Change) : ∀ p : Option Parameter, Steady σ p
  | none => fun _ => rfl
  | some p => one (p.steady σ)
termination_by p => sizeOf p

theorem Parameters.steady (σ : Change) : ∀ ps : Parameters, Steady σ ps
  | .mk p r v k o => two (c := fun x y => Parameters.mk x.1 x.2.1 x.2.2 y.1 y.2)
      (prod (list fun p _ => p.steady σ) (prod (list fun p _ => p.steady σ) (steadyParameter σ v)))
      (prod (list fun p _ => p.steady σ) (steadyParameter σ o))
termination_by ps => sizeOf ps

end

lemma Expr.forget_of_none {σ : Change} (e : Expr) (h : ∀ s ∈ e.spans, σ s = none) :
    e.forget σ = e.forget unchanged := e.steady σ h

end AssetCatalog.Source

namespace AssetCatalog.Asset

open Source Expr Stmt

/-! ## Images -/

def textOf : Expr → Option (String × Span)
  | .constant (.text s) _ span => some (s, span)
  | _ => none

def imageOf (e : Expr) : Option (String × Span) :=
  if isAssetDecorator e then (keywordOf "base_image" e).bind textOf else none

def imagesOf (ds : List (Nat × Definition)) : List (String × Span) :=
  ds.flatMap fun d => d.2.decorators.filterMap imageOf

lemma imagesOf_append (ds ds' : List (Nat × Definition)) :
    imagesOf (ds ++ ds') = imagesOf ds ++ imagesOf ds' := List.flatMap_append

/-- The keyword with another value: only the first of a name counts. -/
def putKeyword (f : Expr → Expr) : List (Option String × Expr) → List (Option String × Expr)
  | [] => []
  | (k, e) :: ks => if k = some "base_image" then (k, f e) :: ks else (k, e) :: putKeyword f ks

def mapText (f : String → String) : Expr → Expr
  | .constant (.text s) marked span => .constant (.text (f s)) marked span
  | e => e

def mapImage (f : String → String) (e : Expr) : Expr :=
  match e with
  | .call g arguments keywords =>
    if isAssetDecorator e then .call g arguments (putKeyword (mapText f) keywords) else e
  | e => e

mutual

def mapImages (f : String → String) : Stmt → Stmt
  | .function n ds ps r b => .function n (ds.map (mapImage f)) ps r (mapImagesIn f b)
  | .classDef n b => .classDef n (mapImagesIn f b)
  | .branch a b => .branch (mapImagesIn f a) (mapImagesIn f b)
  | .loop a b => .loop (mapImagesIn f a) (mapImagesIn f b)
  | .scope b => .scope (mapImagesIn f b)
  | .guarded b hs o e =>
    .guarded (mapImagesIn f b) (mapImagesInAll f hs) (mapImagesIn f o) (mapImagesIn f e)
  | .choice cs => .choice (mapImagesInAll f cs)
  | .imports l ms => .imports l ms
  | .importsFrom l n m => .importsFrom l n m
  | .expression e => .expression e
  | .other => .other

def mapImagesIn (f : String → String) : List Stmt → List Stmt
  | [] => []
  | s :: ss => mapImages f s :: mapImagesIn f ss

def mapImagesInAll (f : String → String) : List (List Stmt) → List (List Stmt)
  | [] => []
  | b :: bs => mapImagesIn f b :: mapImagesInAll f bs

end

lemma filterMap_imageOf_cons (e : Expr) (ds : List Expr) :
    (e :: ds).filterMap imageOf = (imageOf e).toList ++ ds.filterMap imageOf := by
  rw [List.filterMap_cons]
  cases imageOf e <;> rfl

lemma imagesOf_function (depth : Nat) (n : String) (ds : List Expr) (ps : Parameters) (r : Option Expr)
    (b : List Stmt) : imagesOf (definitionsAt depth (.function n ds ps r b)) =
      ds.filterMap imageOf ++ imagesOf (definitionsIn (depth + 1) b) := by
  rfl

/-! ## Images are literals -/

/-- Images stand at places of literals, no two at one. -/
def StandAt (is : List (String × Span)) (spans : List Span) : Prop := (is.map Prod.snd).Subperm spans

namespace StandAt

variable {is js : List (String × Span)} {as bs : List Span}

lemma nil : StandAt [] as := List.nil_subperm

lemma append (h : StandAt is as) (h' : StandAt js bs) : StandAt (is ++ js) (as ++ bs) := by
  rw [StandAt, List.map_append]
  exact List.Subperm.append h h'

lemma left (h : StandAt is as) : StandAt is (as ++ bs) :=
  h.trans (List.sublist_append_left as bs).subperm

lemma right (h : StandAt is bs) : StandAt is (as ++ bs) :=
  h.trans (List.sublist_append_right as bs).subperm

end StandAt

lemma lookup_cons_of_ne {k : Option String} (hk : k ≠ some "base_image") (e : Expr)
    (ks : List (Option String × Expr)) :
    ((k, e) :: ks).lookup (some "base_image") = ks.lookup (some "base_image") := by
  rw [List.lookup_cons, beq_false_of_ne (Ne.symm hk)]

lemma standAt_keywords {ks : List (Option String × Expr)} {image : String} {marked : Bool} {s : Span}
    (h : ks.lookup (some "base_image") = some (.constant (.text image) marked s)) :
    StandAt [(image, s)] (ks.flatMap fun e => e.2.spans) := by
  rw [List.lookup_eq_some_iff] at h
  obtain ⟨front, back, rfl, -⟩ := h
  apply List.Sublist.subperm
  simp

lemma keywordOf_eq_some {v : Expr} (h : keywordOf "base_image" e = some v) :
    ∃ g as ks, e = .call g as ks ∧ ks.lookup (some "base_image") = some v := by
  cases e <;> simp only [keywordOf, reduceCtorEq] at h
  exact ⟨_, _, _, rfl, h⟩

lemma textOf_eq_some {i : String × Span} (h : textOf e = some i) :
    ∃ marked, e = .constant (.text i.1) marked i.2 := by
  unfold textOf at h
  split at h
  · cases h
    exact ⟨_, rfl⟩
  · cases h

lemma imageOf_eq_some {i : String × Span} (h : imageOf e = some i) :
    isAssetDecorator e ∧ ∃ g as ks marked, e = .call g as ks ∧
      ks.lookup (some "base_image") = some (.constant (.text i.1) marked i.2) := by
  rw [imageOf] at h
  split at h
  · next he =>
    obtain ⟨v, hv, hi⟩ := Option.bind_eq_some_iff.mp h
    obtain ⟨marked, rfl⟩ := textOf_eq_some hi
    obtain ⟨g, as, ks, rfl, hks⟩ := keywordOf_eq_some hv
    exact ⟨he, g, as, ks, marked, rfl, hks⟩
  · cases h

lemma standAt_imageOf (e : Expr) : StandAt (imageOf e).toList e.spans := by
  cases h : imageOf e with
  | none => exact .nil
  | some i =>
    obtain ⟨-, g, as, ks, marked, rfl, hks⟩ := imageOf_eq_some h
    rw [Expr.spans]
    exact (standAt_keywords hks).right

lemma standAt_decorators (ds : List Expr) : StandAt (ds.filterMap imageOf) (ds.flatMap Expr.spans) := by
  induction ds with
  | nil => exact .nil
  | cons e ds ih =>
    rw [List.flatMap_cons, filterMap_imageOf_cons]
    exact (standAt_imageOf e).append ih

mutual

theorem standAt_definitionsAt (depth : Nat) : ∀ s : Stmt,
    StandAt (imagesOf (s.definitionsAt depth)) s.spans
  | .function n ds ps r b => by
    rw [imagesOf_function, Stmt.spans]
    exact ((standAt_decorators ds).left.left).append (standAt_definitionsIn (depth + 1) b)
  | .classDef _ b => by
    rw [Stmt.spans]
    exact standAt_definitionsIn (depth + 1) b
  | .branch a b => by
    rw [definitionsAt, imagesOf_append, Stmt.spans]
    exact (standAt_definitionsIn (depth + 1) a).append (standAt_definitionsIn (depth + 1) b)
  | .loop a b => by
    rw [definitionsAt, imagesOf_append, Stmt.spans]
    exact (standAt_definitionsIn (depth + 1) a).append (standAt_definitionsIn (depth + 1) b)
  | .scope b => by
    rw [Stmt.spans]
    exact standAt_definitionsIn (depth + 1) b
  | .guarded b hs o e => by
    rw [definitionsAt, imagesOf_append, imagesOf_append, imagesOf_append, Stmt.spans]
    exact (((standAt_definitionsIn (depth + 1) b).append (standAt_definitionsInAll (depth + 2) hs)).append
      (standAt_definitionsIn (depth + 1) o)).append (standAt_definitionsIn (depth + 1) e)
  | .choice cs => by
    rw [Stmt.spans]
    exact standAt_definitionsInAll (depth + 2) cs
  | .imports .. => .nil
  | .importsFrom .. => .nil
  | .expression _ => .nil
  | .other => .nil

theorem standAt_definitionsIn (depth : Nat) : ∀ b : List Stmt,
    StandAt (imagesOf (definitionsIn depth b)) (b.flatMap Stmt.spans)
  | [] => .nil
  | s :: b => by
    rw [definitionsIn, imagesOf_append, List.flatMap_cons]
    exact (standAt_definitionsAt depth s).append (standAt_definitionsIn depth b)

theorem standAt_definitionsInAll (depth : Nat) : ∀ bs : List (List Stmt),
    StandAt (imagesOf (definitionsInAll depth bs)) (bs.flatMap (List.flatMap Stmt.spans))
  | [] => .nil
  | b :: bs => by
    rw [definitionsInAll, imagesOf_append, List.flatMap_cons]
    exact (standAt_definitionsIn depth b).append (standAt_definitionsInAll depth bs)

end

/-! ## Changes of images -/

/-- A change that gives new texts to the images and to no other literals. -/
structure Renames (σ : Change) (f : String → String) (is : List (String × Span)) (spans : List Span) :
    Prop where
  value : ∀ i ∈ is, σ.value (.text i.1) i.2 = .text (f i.1)
  only : ∀ s, σ s ≠ none → spans.count s ≤ (is.map Prod.snd).count s

namespace Renames

variable {σ : Change} {f : String → String} {is js : List (String × Span)} {as bs : List Span}

lemma left (h : Renames σ f (is ++ js) (as ++ bs)) (hjs : StandAt js bs) : Renames σ f is as where
  value i hi := h.value i (List.mem_append_left _ hi)
  only s hs := by
    have hall := h.only s hs
    have hle := List.Subperm.count_le hjs s
    simp only [List.map_append, List.count_append] at hall
    omega

lemma right (h : Renames σ f (is ++ js) (as ++ bs)) (his : StandAt is as) : Renames σ f js bs where
  value i hi := h.value i (List.mem_append_right _ hi)
  only s hs := by
    have hall := h.only s hs
    have hle := List.Subperm.count_le his s
    simp only [List.map_append, List.count_append] at hall
    omega

lemma first (h : Renames σ f is (as ++ bs)) : Renames σ f is as := by
  rw [← List.append_nil is] at h
  exact h.left .nil

lemma none_of_nil (h : Renames σ f [] as) : ∀ s ∈ as, σ s = none := by
  intro s hs
  by_contra hσ
  have hle := h.only s hσ
  rw [List.map_nil, List.count_nil, Nat.le_zero, List.count_eq_zero] at hle
  exact hle hs

lemma none_behind (h : Renames σ f is (as ++ bs)) (his : StandAt is as) : ∀ s ∈ bs, σ s = none := by
  rw [← List.append_nil is] at h
  exact (h.right his).none_of_nil

lemma none_before (h : Renames σ f is (as ++ bs)) (his : StandAt is bs) : ∀ s ∈ as, σ s = none := by
  exact (h.left his).none_of_nil

end Renames

section Trees

variable {σ : Change} {f : String → String}

lemma putKeyword_of_fixed {g : Expr → Expr}
    (h : ∀ e, ks.lookup (some "base_image") = some e → g e = e) : putKeyword g ks = ks := by
  induction ks with
  | nil => rfl
  | cons k ks ih =>
    obtain ⟨k, e⟩ := k
    rw [putKeyword]
    split
    · next hk => rw [h e (by simp [hk])]
    · next hk =>
      rw [lookup_cons_of_ne hk] at h
      rw [ih h]

lemma forget_putKeyword {ks : List (Option String × Expr)} {image : String} {marked : Bool} {s : Span}
    (hks : ks.lookup (some "base_image") = some (.constant (.text image) marked s))
    (h : Renames σ f [(image, s)] (ks.flatMap fun e => e.2.spans)) :
    ks.map (Prod.map id (Expr.forget σ)) =
      (putKeyword (mapText f) ks).map (Prod.map id (Expr.forget unchanged)) := by
  induction ks with
  | nil => cases hks
  | cons k ks ih =>
    obtain ⟨k, e⟩ := k
    rw [List.flatMap_cons] at h
    rw [putKeyword]
    split
    · next hk =>
      obtain rfl : e = .constant (.text image) marked s := by simpa [hk] using hks
      rw [Expr.spans] at h
      have hrest := h.none_behind (List.Subperm.refl [s])
      have hvalue : σ.value (.text image) s = .text (f image) := h.value _ (List.mem_singleton_self _)
      have hks : Steady σ ks := .list fun e _ => .prod (.of_literalless e.1) (e.2.steady σ)
      rw [List.map_cons, List.map_cons, Prod.map, Expr.forget, hvalue]
      exact congrArg _ (by simpa using hks (by simpa using hrest))
    · next hk =>
      rw [lookup_cons_of_ne hk] at hks
      have hthis := h.none_before (standAt_keywords hks)
      rw [List.map_cons, List.map_cons, Prod.map, e.forget_of_none hthis, ih hks (h.right .nil)]
      rfl

lemma mapImage_of_none (h : imageOf e = none) : mapImage f e = e := by
  cases e <;> try rfl
  rw [mapImage]
  split
  · next he =>
    rw [putKeyword_of_fixed]
    intro v hv
    have hv : textOf v = none := by
      rwa [imageOf, if_pos he, keywordOf, hv, Option.bind_some] at h
    unfold mapText
    split
    · cases hv
    · rfl
  · rfl

lemma forget_mapImage {e : Expr} (h : Renames σ f (imageOf e).toList e.spans) :
    e.forget σ = (mapImage f e).forget unchanged := by
  cases hi : imageOf e with
  | none =>
    rw [hi] at h
    rw [mapImage_of_none hi]
    exact e.steady σ h.none_of_nil
  | some i =>
    rw [hi] at h
    obtain ⟨he, g, as, ks, marked, rfl, hks⟩ := imageOf_eq_some hi
    rw [Expr.spans] at h
    have hnone := List.forall_mem_append.mp (h.none_before (standAt_keywords hks))
    have has : as.map (Expr.forget σ) = as.map (Expr.forget unchanged) :=
      Steady.list (fun e _ => e.steady σ) hnone.2
    simp only [mapImage, if_pos he, Expr.forget, g.forget_of_none hnone.1, forgetAll_eq, has,
      forgetKeywords_eq, forget_putKeyword hks (h.right .nil)]

lemma forget_decorators {ds : List Expr}
    (h : Renames σ f (ds.filterMap imageOf) (ds.flatMap Expr.spans)) :
    forgetAll σ ds = forgetAll unchanged (ds.map (mapImage f)) := by
  induction ds with
  | nil => rfl
  | cons e ds ih =>
    rw [filterMap_imageOf_cons, List.flatMap_cons] at h
    rw [forgetAll, List.map_cons, forgetAll, forget_mapImage (h.left (standAt_decorators ds)),
      ih (h.right (standAt_imageOf e))]

mutual

theorem forget_mapImages (depth : Nat) : ∀ s : Stmt,
    Renames σ f (imagesOf (s.definitionsAt depth)) s.spans →
    s.forget σ = (mapImages f s).forget unchanged
  | .function n ds ps r b, h => by
    rw [imagesOf_function, Stmt.spans] at h
    have hb := forget_mapImagesIn (depth + 1) b (h.right (standAt_decorators ds).left.left)
    have hfront := h.left (standAt_definitionsIn (depth + 1) b)
    have hr := hfront.none_behind (standAt_decorators ds).left
    have hps := hfront.first.none_behind (standAt_decorators ds)
    have hps : ps.forget σ = ps.forget unchanged := ps.steady σ hps
    have hr : r.map (Expr.forget σ) = r.map (Expr.forget unchanged) :=
      steadyOption σ r (by simpa using hr)
    rw [Stmt.forget, mapImages, Stmt.forget, forget_decorators hfront.first.first, hps, forgetOption_eq,
      forgetOption_eq, hr, hb]
  | .classDef n b, h => by
    rw [Stmt.spans] at h
    rw [Stmt.forget, mapImages, Stmt.forget, forget_mapImagesIn (depth + 1) b h]
  | .branch a b, h => by
    rw [definitionsAt, imagesOf_append, Stmt.spans] at h
    rw [Stmt.forget, mapImages, Stmt.forget,
      forget_mapImagesIn (depth + 1) a (h.left (standAt_definitionsIn _ b)),
      forget_mapImagesIn (depth + 1) b (h.right (standAt_definitionsIn _ a))]
  | .loop a b, h => by
    rw [definitionsAt, imagesOf_append, Stmt.spans] at h
    rw [Stmt.forget, mapImages, Stmt.forget,
      forget_mapImagesIn (depth + 1) a (h.left (standAt_definitionsIn _ b)),
      forget_mapImagesIn (depth + 1) b (h.right (standAt_definitionsIn _ a))]
  | .scope b, h => by
    rw [Stmt.spans] at h
    rw [Stmt.forget, mapImages, Stmt.forget, forget_mapImagesIn (depth + 1) b h]
  | .guarded b hs o e, h => by
    rw [definitionsAt, imagesOf_append, imagesOf_append, imagesOf_append, Stmt.spans] at h
    have hb := standAt_definitionsIn (depth + 1) b
    have hhs := standAt_definitionsInAll (depth + 2) hs
    have ho := standAt_definitionsIn (depth + 1) o
    have he := standAt_definitionsIn (depth + 1) e
    rw [Stmt.forget, mapImages, Stmt.forget,
      forget_mapImagesIn (depth + 1) b (((h.left he).left ho).left hhs),
      forget_mapImagesInAll (depth + 2) hs (((h.left he).left ho).right hb),
      forget_mapImagesIn (depth + 1) o ((h.left he).right (hb.append hhs)),
      forget_mapImagesIn (depth + 1) e (h.right ((hb.append hhs).append ho))]
  | .choice cs, h => by
    rw [Stmt.spans] at h
    rw [Stmt.forget, mapImages, Stmt.forget, forget_mapImagesInAll (depth + 2) cs h]
  | .imports .., _ => rfl
  | .importsFrom .., _ => rfl
  | .expression e, h => by
    rw [Stmt.spans] at h
    rw [Stmt.forget, mapImages, Stmt.forget, e.forget_of_none h.none_of_nil]
  | .other, _ => rfl

theorem forget_mapImagesIn (depth : Nat) : ∀ b : List Stmt,
    Renames σ f (imagesOf (definitionsIn depth b)) (b.flatMap Stmt.spans) →
    forgetBody σ b = forgetBody unchanged (mapImagesIn f b)
  | [], _ => rfl
  | s :: b, h => by
    rw [definitionsIn, imagesOf_append, List.flatMap_cons] at h
    rw [forgetBody, mapImagesIn, forgetBody,
      forget_mapImages depth s (h.left (standAt_definitionsIn depth b)),
      forget_mapImagesIn depth b (h.right (standAt_definitionsAt depth s))]

theorem forget_mapImagesInAll (depth : Nat) : ∀ bs : List (List Stmt),
    Renames σ f (imagesOf (definitionsInAll depth bs)) (bs.flatMap (List.flatMap Stmt.spans)) →
    forgetBodies σ bs = forgetBodies unchanged (mapImagesInAll f bs)
  | [], _ => rfl
  | b :: bs, h => by
    rw [definitionsInAll, imagesOf_append, List.flatMap_cons] at h
    rw [forgetBodies, mapImagesInAll, forgetBodies,
      forget_mapImagesIn depth b (h.left (standAt_definitionsInAll depth bs)),
      forget_mapImagesInAll depth bs (h.right (standAt_definitionsIn depth b))]

end

end Trees

/-! ## Locations -/

lemma imageLocation_eq_ok {function : String} {v : Expr} {l : ImageLocation}
    (h : imageLocation p function v = .ok l) : textOf v = some (l.image, l.span) := by
  unfold imageLocation at h
  split at h
  · cases h
    rfl
  · cases h

lemma filterMap_named (ds : List Expr) (name : String) :
    ((ds.filter isAssetDecorator).filterMap fun e =>
      (keywordOf "base_image" e).map fun v => (name, v)).filterMap (fun x => textOf x.2) =
      ds.filterMap imageOf := by
  rw [List.filterMap_filterMap, List.filterMap_filter]
  refine List.filterMap_congr fun e _ => ?_
  rw [imageOf]
  split
  · rw [Option.bind_map]
    rfl
  · rfl

lemma map_image_span_imageLocations {body : List Stmt} {found : List ImageLocation}
    (h : imageLocations p body = .ok found) :
    (found.map fun l => (l.image, l.span)) =
      (definitions body).flatMap fun d => d.decorators.filterMap imageOf := by
  have hall := mapM_eq_ok.mp h
  have hmap {xs : List (String × Expr)} {ls : List ImageLocation}
      (h : List.Forall₂ (fun x l => imageLocation p x.1 x.2 = .ok l) xs ls) :
      (ls.map fun l => (l.image, l.span)) = xs.filterMap fun x => textOf x.2 := by
    induction h with
    | nil => rfl
    | cons hx _ ih => rw [List.map_cons, List.filterMap_cons, imageLocation_eq_ok hx, ih]
  rw [hmap hall, List.filterMap_flatMap]
  simp only [filterMap_named]

lemma perm_imagesOf {body : List Stmt} {found : List ImageLocation}
    (h : imageLocations p body = .ok found) :
    (found.map fun l => (l.image, l.span)).Perm (imagesOf (definitionsIn 0 body)) := by
  rw [map_image_span_imageLocations h, definitions, List.flatMap_map]
  exact (List.mergeSort_perm _ _).flatMap_right _

end AssetCatalog.Asset
