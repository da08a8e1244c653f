import AssetCatalog.Skeleton.Name
import AssetCatalog.Proofs.Frame

/-!
# Names that are accepted

Words of letters, numbers and underscores: single names of a path.
-/

namespace AssetCatalog

open List

variable {s : String} {names : List String}

namespace Skeleton

structure IsWord (s : String) : Prop where
  ne_empty : s ≠ ""
  parts : ∀ c ∈ s.toList, Text.isWordPart c = true

lemma isWord_of_isSnakeText (hs : s ≠ "") (h : isSnakeText s) : IsWord s := by
  refine ⟨hs, fun c hc => ?_⟩
  rw [isSnakeText, Bool.and_eq_true, all_eq_true] at h
  by_cases hmark : c = '_'
  · simp [Text.isWordPart, hmark]
  · rw [Text.isWordPart, h.2 c (mem_filter.mpr ⟨hc, by simpa using hmark⟩), Bool.or_true]

lemma IsWord.notMem (h : IsWord s) {c : Char} (hc : Text.isWordPart c = false) :
    c ∉ s.toList := by
  intro hmem
  rw [h.parts c hmem] at hc
  cases hc

lemma IsWord.isPlainName (h : IsWord s) : IsPlainName s := ⟨h.ne_empty, h.notMem (by decide)⟩

lemma isWord_of_checkName {name : String} (h : checkName name = .ok ()) : IsWord name := by
  simp only [checkName, guard_eq_ok except_throw_bind_ne_ok, except_seq_eq_ok,
    guard_eq_ok except_throw_ne_ok] at h
  obtain ⟨hne, -, -, -, -, hsnake, -⟩ := h
  exact isWord_of_isSnakeText hne (by simpa using hsnake)

lemma isWord_of_checkGroup {label group : String} (hne : group ≠ "")
    (h : checkGroup label group = .ok ()) : IsWord group ∧ startsWithLetter group := by
  simp only [checkGroup, except_seq_eq_ok, guard_eq_ok except_throw_ne_ok, Bool.or_eq_true,
    Bool.not_eq_true', not_or, Bool.not_eq_false] at h
  exact ⟨isWord_of_isSnakeText hne h.2.2.1.1, h.2.2.1.2⟩

lemma isWord_of_checkCategory {category : String} (h : checkCategory category = .ok ()) :
    IsWord category ∧ startsWithLetter category := by
  simp only [checkCategory, guard_eq_ok except_throw_bind_ne_ok] at h
  exact isWord_of_checkGroup h.1 h.2

lemma isWord_of_checkSubcategory {subcategory : String}
    (h : checkSubcategory subcategory = .ok ()) :
    IsWord subcategory ∧ startsWithLetter subcategory := by
  simp only [checkSubcategory, guard_eq_ok except_throw_bind_ne_ok] at h
  exact isWord_of_checkGroup h.1 h.2.2

end Skeleton

namespace Path

/-- Names that a path keeps as they are, without a step back. -/
def IsStep (n : String) : Prop := IsPlainName n ∧ n ≠ "." ∧ n ≠ ".."
deriving Decidable

lemma isStep_of_isWord (h : Skeleton.IsWord s) : IsStep s := by
  refine ⟨h.isPlainName, ?_, ?_⟩
  · rintro rfl
    exact h.notMem (c := '.') (by decide) (by decide)
  · rintro rfl
    exact h.notMem (c := '.') (by decide) (by decide)

lemma takeWhile_join (h : ∀ n ∈ names, IsPlainName n) :
    (Text.join "/" names).toList.takeWhile (· = '/') = [] := by
  cases names with
  | nil => rfl
  | cons n rest =>
    obtain ⟨hn, hslash⟩ := h n mem_cons_self
    obtain ⟨c, cs, hc⟩ := exists_cons_of_ne_nil (mt String.toList_eq_nil_iff.mp hn)
    have hfirst : ∃ cs', (Text.join "/" (n :: rest)).toList = c :: cs' := by
      cases rest with
      | nil => exact ⟨cs, hc⟩
      | cons m rest =>
        rw [Text.join_cons_cons, String.toList_append, String.toList_append, hc]
        exact ⟨_, rfl⟩
    obtain ⟨cs', hcs'⟩ := hfirst
    rw [hcs', takeWhile_cons_of_neg]
    intro hfirst
    obtain rfl : c = '/' := by simpa using hfirst
    rw [hc] at hslash
    exact hslash mem_cons_self

lemma split_join_names (hne : names ≠ []) (h : ∀ n ∈ names, IsPlainName n ∧ n ≠ ".") :
    Text.split "/" (Text.join "/" names) = names ∧ names.filter isName = names := by
  refine ⟨Text.split_join '/' names hne fun n hn => (h n hn).1.2, filter_eq_self.mpr fun n hn => ?_⟩
  simp [isName, (h n hn).1.1, (h n hn).2]

lemma ofText_join (hne : names ≠ []) (h : ∀ n ∈ names, IsStep n) :
    ofText (Text.join "/" names) = ⟨"", names⟩ := by
  obtain ⟨hsplit, hfilter⟩ := split_join_names hne fun n hn => ⟨(h n hn).1, (h n hn).2.1⟩
  rw [ofText, hsplit, hfilter, takeWhile_join fun n hn => (h n hn).1]
  rfl

lemma ofText_of_isStep {n : String} (h : IsStep n) : ofText n = ⟨"", [n]⟩ :=
  ofText_join (cons_ne_nil n []) (by simpa using h)

end Path

end AssetCatalog
