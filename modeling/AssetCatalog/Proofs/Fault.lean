import Mathlib
import AssetCatalog.Fault

/-!
# Rules that may fail

When a sequence of rules gives a result, in terms of the rules one by one.
-/

namespace AssetCatalog

open List

variable {α β : Type} {f : α → Except Fault β} {xs : List α} {ys : List β} {a : α} {b : β} {e : Fault}

lemma except_bind_eq_ok {x : Except Fault α} :
    (x >>= f) = .ok b ↔ ∃ a, x = .ok a ∧ f a = .ok b := by
  cases x <;> simp [bind, Except.bind]

@[simp] lemma except_ok_bind : (.ok a >>= f) = f a := rfl

lemma except_seq_eq_ok {x : Except Fault Unit} {f : Unit → Except Fault β} :
    (x >>= f) = .ok b ↔ x = .ok () ∧ f () = .ok b := by
  cases x <;> simp [bind, Except.bind]

@[simp] lemma except_pure_eq_ok {a b : α} : (pure a : Except Fault α) = .ok b ↔ a = b := by
  simp [pure, Except.pure]

@[simp] lemma except_throw_ne_ok : (throw e : Except Fault α) ≠ .ok a := by
  simp

lemma except_throw_bind_ne_ok : (throw e >>= f) ≠ .ok b := by
  intro h
  cases h

lemma guard_eq_ok {c : Prop} [Decidable c] {x y : Except Fault α} (hx : x ≠ .ok a) :
    (if c then x else y) = .ok a ↔ ¬c ∧ y = .ok a := by
  by_cases hc : c <;> simp [hc, hx]

lemma forM_eq_ok {f : α → Except Fault Unit} : xs.forM f = .ok () ↔ ∀ x ∈ xs, f x = .ok () := by
  induction xs with
  | nil => simp
  | cons x xs ih =>
    change (f x >>= fun _ => xs.forM f) = _ ↔ _
    simp only [except_bind_eq_ok, ih, mem_cons, forall_eq_or_imp]
    exact ⟨fun ⟨_, hx, hxs⟩ => ⟨hx, hxs⟩, fun ⟨hx, hxs⟩ => ⟨(), hx, hxs⟩⟩

lemma mapM_eq_ok : xs.mapM f = .ok ys ↔ List.Forall₂ (fun x y => f x = .ok y) xs ys := by
  induction xs generalizing ys with
  | nil => cases ys <;> simp
  | cons x xs ih =>
    simp only [mapM_cons, except_bind_eq_ok, ih, except_pure_eq_ok, forall₂_cons_left_iff]
    constructor
    · rintro ⟨y, hy, zs, hzs, rfl⟩
      exact ⟨y, zs, hy, hzs, rfl⟩
    · rintro ⟨y, zs, hy, hzs, rfl⟩
      exact ⟨y, hy, zs, hzs, rfl⟩

lemma mapM_congr {f g : α → Except Fault β} (h : ∀ x ∈ xs, f x = g x) : xs.mapM f = xs.mapM g := by
  induction xs with
  | nil => rfl
  | cons x xs ih =>
    obtain ⟨hx, hxs⟩ := forall_mem_cons.mp h
    rw [mapM_cons, mapM_cons, hx, ih hxs]

lemma exists_of_mem_mapM (h : xs.mapM f = .ok ys) {y : β} (hy : y ∈ ys) :
    ∃ x ∈ xs, f x = .ok y := by
  rw [mapM_eq_ok] at h
  induction h with
  | nil => cases hy
  | @cons x z xs zs hx _ ih =>
    rcases mem_cons.mp hy with rfl | hy
    · exact ⟨x, mem_cons_self, hx⟩
    · obtain ⟨a, ha, hf⟩ := ih hy
      exact ⟨a, mem_cons_of_mem x ha, hf⟩

lemma exists_mapM_eq_ok : (∃ ys, xs.mapM f = .ok ys) ↔ ∀ x ∈ xs, ∃ y, f x = .ok y := by
  simp only [mapM_eq_ok]
  induction xs with
  | nil => simp
  | cons x xs ih =>
    simp only [forall₂_cons_left_iff, forall_mem_cons, ← ih]
    constructor
    · rintro ⟨_, y, ys, hy, hys, rfl⟩
      exact ⟨⟨y, hy⟩, ys, hys⟩
    · rintro ⟨⟨y, hy⟩, ys, hys⟩
      exact ⟨_, y, ys, hy, hys, rfl⟩

lemma flatten_mapM_eq_ok_nil {f : α → Except Fault (List β)} :
    (xs.mapM f >>= fun ys => pure ys.flatten) = .ok [] ↔ ∀ x ∈ xs, f x = .ok [] := by
  induction xs with
  | nil => simp
  | cons x xs ih =>
    simp only [except_bind_eq_ok, except_pure_eq_ok, mapM_eq_ok, forall₂_cons_left_iff,
      forall_mem_cons, ← ih]
    constructor
    · rintro ⟨_, ⟨y, ys, hy, hys, rfl⟩, hnil⟩
      rw [flatten_cons, append_eq_nil_iff] at hnil
      exact ⟨hnil.1 ▸ hy, ys, hys, hnil.2⟩
    · rintro ⟨hy, ys, hys, hnil⟩
      exact ⟨[] :: ys, ⟨[], ys, hy, hys, rfl⟩, by simpa using hnil⟩

section Filter

variable {m : Type → Type} [Monad m] [LawfulMonad m]

lemma filterAuxM_eq (f : α → m Bool) (xs acc : List α) :
    xs.filterAuxM f acc = (· ++ acc) <$> xs.filterAuxM f [] := by
  induction xs generalizing acc with
  | nil => simp
  | cons a as ih =>
    rw [List.filterAuxM, List.filterAuxM, map_bind]
    congr 1
    funext b
    rw [ih (bif b then a :: acc else acc), ih (bif b then [a] else [])]
    cases b <;> simp

lemma filterM_nil (f : α → m Bool) : [].filterM f = pure [] := by
  simp [List.filterM]

lemma filterM_cons (f : α → m Bool) (a : α) (as : List α) : (a :: as).filterM f =
      (f a >>= fun b => as.filterM f >>= fun ys => pure (if b then a :: ys else ys)) := by
  simp only [List.filterM, List.filterAuxM, bind_assoc]
  congr 1
  funext b
  rw [filterAuxM_eq]
  cases b <;> simp

end Filter

variable {f : α → Except Fault Bool}

lemma filterM_eq_ok_nil : xs.filterM f = .ok [] ↔ ∀ x ∈ xs, f x = .ok false := by
  induction xs with
  | nil => simp [filterM_nil]
  | cons x xs ih =>
    rw [filterM_cons, forall_mem_cons, ← ih, except_bind_eq_ok]
    constructor
    · rintro ⟨b, hb, h⟩
      obtain ⟨ys, hys, h⟩ := except_bind_eq_ok.mp h
      cases b <;> simp_all
    · rintro ⟨hx, hxs⟩
      exact ⟨false, hx, by rw [hxs]; rfl⟩

lemma filterM_eq_ok {g : α → Bool} (h : ∀ x ∈ xs, f x = .ok (g x)) :
    xs.filterM f = .ok (xs.filter g) := by
  induction xs with
  | nil => rfl
  | cons x xs ih =>
    obtain ⟨hx, hxs⟩ := forall_mem_cons.mp h
    rw [filterM_cons, hx, except_ok_bind, ih hxs, except_ok_bind, filter_cons]
    rfl

lemma exists_foldlM_eq_ok {f : β → α → Except Fault β} {P : β → Prop}
    (hf : ∀ b, ∀ a ∈ xs, P b → ∃ c, f b a = .ok c ∧ P c) (hb : P b) :
    ∃ c, xs.foldlM f b = .ok c := by
  induction xs generalizing b with
  | nil => exact ⟨b, rfl⟩
  | cons a as ih =>
    obtain ⟨c, hc, hkept⟩ := hf b a mem_cons_self hb
    rw [foldlM_cons, hc, except_ok_bind]
    exact ih (fun b a ha => hf b a (mem_cons_of_mem _ ha)) hkept

end AssetCatalog
