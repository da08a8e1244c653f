import AssetCatalog.Text.Wrap
import AssetCatalog.Proofs.Text

/-!
# Words and wrapped texts

Wrapping moves blanks alone, and a text that is wrapped is left as it is.
-/

namespace AssetCatalog.Text

open List

/-! ## Words -/

section Words

variable {blank : Char → Bool} {a b w : List Char} {ws : List (List Char)} {c : Char}

/-- A word: some characters, and no blank among them. -/
def IsSolid (blank : Char → Bool) (w : List Char) : Prop := w ≠ [] ∧ ∀ c ∈ w, blank c = false

lemma isSolid_of_mem_wordsFrom (cs acc : List Char) (hacc : ∀ c ∈ acc, blank c = false)
    (h : w ∈ wordsFrom blank cs acc) : IsSolid blank w := by
  have hdone {acc : List Char} (hne : acc ≠ []) (hacc : ∀ c ∈ acc, blank c = false) :
      IsSolid blank acc.reverse := ⟨by simpa using hne, by simpa using hacc⟩
  fun_induction wordsFrom blank cs acc with
  | case1 => cases h
  | case2 acc hne =>
    rw [mem_singleton.mp h]
    exact hdone hne hacc
  | case3 c cs acc hc hempty ih => exact ih (by simp) h
  | case4 c cs acc hc hempty ih =>
    rcases mem_cons.mp h with rfl | h
    · exact hdone (by simpa using hempty) hacc
    · exact ih (by simp) h
  | case5 c cs acc hc ih => exact ih (by simpa [hc] using hacc) h

lemma wordsFrom_append (hc : blank c) (a b acc : List Char) :
    wordsFrom blank (a ++ c :: b) acc = wordsFrom blank a acc ++ wordsFrom blank b [] := by
  fun_induction wordsFrom blank a acc with
  | case1 => simp [wordsFrom, hc]
  | case2 acc hne => simpa [wordsFrom, hc] using hne
  | case3 d cs acc hd hempty ih => simp [wordsFrom, hd, hempty, ih]
  | case4 d cs acc hd hempty ih => simp [wordsFrom, hd, hempty, ih]
  | case5 d cs acc hd ih => simp [wordsFrom, hd, ih]

lemma wordsFrom_of_isSolid (h : ∀ c ∈ w, blank c = false) (acc : List Char) (hne : w ++ acc ≠ []) :
    wordsFrom blank w acc = [acc.reverse ++ w] := by
  induction w generalizing acc with
  | nil => cases acc <;> simp_all [wordsFrom]
  | cons c w ih =>
    obtain ⟨hc, h⟩ := forall_mem_cons.mp h
    simp [wordsFrom, hc, ih h (c :: acc) (by simp)]

lemma wordsFrom_intercalate {sep : List Char} (hsep : sep ≠ []) (hblank : ∀ c ∈ sep, blank c)
    (ps : List (List Char)) :
    wordsFrom blank (sep.intercalate ps) [] = ps.flatMap fun p => wordsFrom blank p [] := by
  have hskip (sep b : List Char) (hblank : ∀ c ∈ sep, blank c) :
      wordsFrom blank (sep ++ b) [] = wordsFrom blank b [] := by
    induction sep with
    | nil => rfl
    | cons c sep ih => simp_all [wordsFrom]
  obtain ⟨c, sep, rfl⟩ := exists_cons_of_ne_nil hsep
  obtain ⟨hc, hblank⟩ := forall_mem_cons.mp hblank
  induction ps with
  | nil => rfl
  | cons p ps ih =>
    cases ps with
    | nil => simp
    | cons q ps =>
      rw [intercalate_cons_cons, append_assoc, cons_append, wordsFrom_append hc, hskip _ _ hblank, ih]
      rfl

lemma flatMap_words (h : ∀ w ∈ ws, IsSolid blank w) :
    (ws.flatMap fun w => wordsFrom blank w []) = ws := by
  induction ws with
  | nil => rfl
  | cons w ws ih =>
    obtain ⟨⟨hne, hw⟩, h⟩ := forall_mem_cons.mp h
    rw [flatMap_cons, ih h, wordsFrom_of_isSolid hw [] (by simpa using hne)]
    rfl

end Words

/-! ## Lines -/

section Lines

variable {width : ℕ} {line p q : List Char} {ws ps : List (List Char)}

def Fits (width : ℕ) (l : List Char) : Prop := l.length ≤ width ∨ IsSolid isBlank l

/-- A line that may stand in a wrapped text. -/
structure IsLine (width : ℕ) (l : List Char) : Prop where
  ne_nil : l ≠ []
  newline : '\n' ∉ l
  fits : Fits width l

lemma IsSolid.isLine {w : List Char} (h : IsSolid isBlank w) : IsLine width w :=
  ⟨h.1, fun hmem => absurd (h.2 _ hmem) (by decide), .inr h⟩

lemma isLine_of_mem_fillFrom (hline : IsLine width line) (hws : ∀ w ∈ ws, IsSolid isBlank w) :
    ∀ l ∈ fillFrom width line ws, IsLine width l := by
  induction ws generalizing line with
  | nil => simpa [fillFrom] using hline
  | cons w ws ih =>
    obtain ⟨hw, hws⟩ := forall_mem_cons.mp hws
    rw [fillFrom]
    split
    · next hfits =>
      refine ih ⟨by simp, ?_, .inl ?_⟩ hws
      · have hword : IsLine width w := hw.isLine
        simpa [hline.newline] using hword.newline
      · rw [length_append, length_cons]
        omega
    · exact forall_mem_cons.mpr ⟨hline, ih hw.isLine hws⟩

lemma words_fillFrom (hws : ∀ w ∈ ws, IsSolid isBlank w) :
    (fillFrom width line ws).flatMap wordList = wordList line ++ ws := by
  induction ws generalizing line with
  | nil => simp [fillFrom]
  | cons w ws ih =>
    obtain ⟨hw, hws⟩ := forall_mem_cons.mp hws
    have hword : wordList w = [w] := wordsFrom_of_isSolid hw.2 [] (by simpa using hw.1)
    rw [fillFrom]
    split
    · rw [ih hws, wordList, wordsFrom_append (by decide), ← wordList, ← wordList, hword]
      simp
    · rw [flatMap_cons, ih hws, hword]
      rfl

lemma isLine_of_mem_fill (p : List Char) : ∀ l ∈ fill width (wordList p), IsLine width l := by
  have hwords : ∀ w ∈ wordList p, IsSolid isBlank w := fun w =>
    isSolid_of_mem_wordsFrom p [] (by simp)
  cases hp : wordList p with
  | nil => simp [fill]
  | cons w ws =>
    obtain ⟨hw, hws⟩ := forall_mem_cons.mp (hp ▸ hwords)
    exact isLine_of_mem_fillFrom hw.isLine hws

lemma wordList_fillParagraph (p : List Char) : wordList (fillParagraph width p) = wordList p := by
  have hwords : ∀ w ∈ wordList p, IsSolid isBlank w := fun w =>
    isSolid_of_mem_wordsFrom p [] (by simp)
  rw [fillParagraph, wordList, wordsFrom_intercalate (by decide) (by simp [isBlank])]
  cases hp : wordList p with
  | nil => rfl
  | cons w ws =>
    obtain ⟨hw, hws⟩ := forall_mem_cons.mp (hp ▸ hwords)
    refine (words_fillFrom hws).trans ?_
    rw [wordList, wordsFrom_of_isSolid hw.2 [] (by simpa using hw.1)]
    rfl

end Lines

/-! ## Paragraphs -/

section Paragraphs

variable {width : ℕ} {l p : List Char} {ls ps : List (List Char)}

/-- The mark between two paragraphs does not occur in the text, nor at its end. -/
def IsWhole (p : List Char) : Prop := occursIn ['\n', '\n'] (p ++ ['\n']) = false

lemma occursIn_append_newline (hl : '\n' ∉ l) (t : List Char) :
    occursIn ['\n', '\n'] (l ++ '\n' :: t) = occursIn ['\n', '\n'] ('\n' :: t) := by
  induction l with
  | nil => rfl
  | cons c l ih =>
    obtain ⟨hc, hl⟩ := not_or.mp (mem_cons.not.mp hl)
    rw [cons_append, occursIn, ih hl]
    simp [hc]

lemma isWhole_intercalate (hls : ∀ l ∈ ls, IsLine width l) : IsWhole (['\n'].intercalate ls) := by
  induction ls with
  | nil => rfl
  | cons l ls ih =>
    obtain ⟨hl, hls⟩ := forall_mem_cons.mp hls
    cases ls with
    | nil =>
      rw [intercalate_singleton, IsWhole, occursIn_append_newline hl.newline]
      rfl
    | cons l' ls =>
      have hl' := hls l' (by simp)
      obtain ⟨c, l', rfl⟩ := exists_cons_of_ne_nil hl'.ne_nil
      obtain ⟨hc, -⟩ := not_or.mp (mem_cons.not.mp hl'.newline)
      have hrest : ∃ t, ['\n'].intercalate ((c :: l') :: ls) = c :: t := by
        cases ls with
        | nil => exact ⟨l', by simp⟩
        | cons => exact ⟨_, by rw [intercalate_cons_cons]; rfl⟩
      obtain ⟨t, ht⟩ := hrest
      have ih := ih hls
      rw [IsWhole, ht] at ih
      rw [IsWhole, intercalate_cons_cons, ht, append_assoc, append_assoc, singleton_append,
        occursIn_append_newline hl.newline, occursIn, ih]
      simp [List.isPrefixOf, hc]

lemma splitFrom_append_of_isWhole (hp : IsWhole p) (t acc : List Char) :
    splitFrom ['\n', '\n'] (p ++ t) 0 acc = splitFrom ['\n', '\n'] t 0 (p.reverse ++ acc) := by
  induction p generalizing acc with
  | nil => rfl
  | cons c p ih =>
    rw [IsWhole, cons_append, occursIn, Bool.or_eq_false_iff] at hp
    have hstart : ['\n', '\n'].isPrefixOf (c :: (p ++ t)) = false := by
      cases p with
      | nil => simp_all [List.isPrefixOf]
      | cons => simpa [List.isPrefixOf] using hp.1
    rw [cons_append, splitFrom, hstart, if_neg (by decide), ih hp.2]
    simp

lemma splitList_intercalate_of_isWhole (hne : ps ≠ []) (hps : ∀ p ∈ ps, IsWhole p) :
    splitList ['\n', '\n'] (['\n', '\n'].intercalate ps) = ps := by
  induction ps with
  | nil => exact absurd rfl hne
  | cons p ps ih =>
    obtain ⟨hp, hps⟩ := forall_mem_cons.mp hps
    cases ps with
    | nil =>
      have hend := splitFrom_append_of_isWhole hp [] []
      simpa [splitList, splitFrom] using hend
    | cons q ps =>
      rw [intercalate_cons_cons, splitList, append_assoc, splitFrom_append_of_isWhole hp]
      simpa [splitFrom, splitList] using ih (by simp) hps

lemma fits_of_mem_splitList {sep : List Char} (hne : sep ≠ []) (hsep : ∀ c ∈ sep, c = '\n')
    (hps : ∀ p ∈ ps, ∀ l ∈ splitList ['\n'] p, Fits width l) :
    ∀ l ∈ splitList ['\n'] (sep.intercalate ps), Fits width l := by
  have hnil : Fits width [] := .inl (Nat.zero_le width)
  have hskip (sep t : List Char) (hsep : ∀ c ∈ sep, c = '\n')
      (ht : ∀ l ∈ splitList ['\n'] t, Fits width l) : ∀ l ∈ splitList ['\n'] (sep ++ t), Fits width l := by
    induction sep with
    | nil => exact ht
    | cons c sep ih =>
      obtain ⟨rfl, hmore⟩ := forall_mem_cons.mp hsep
      simpa [splitList, splitFrom, hnil] using ih hmore
  obtain ⟨c, sep, rfl⟩ := exists_cons_of_ne_nil hne
  obtain ⟨rfl, hmore⟩ := forall_mem_cons.mp hsep
  induction ps with
  | nil => simpa [splitList, splitFrom] using hnil
  | cons p ps ih =>
    obtain ⟨hp, hps⟩ := forall_mem_cons.mp hps
    cases ps with
    | nil => simpa using hp
    | cons q ps =>
      rw [intercalate_cons_cons, append_assoc, cons_append, splitList, splitFrom_append]
      exact forall_mem_append.mpr ⟨hp, hskip _ _ hmore (ih hps)⟩

lemma fits_of_mem_lines (ps : List (List Char)) :
    ∀ l ∈ splitList ['\n'] (['\n', '\n'].intercalate (ps.map (fillParagraph width))),
      Fits width l := by
  apply fits_of_mem_splitList (by decide) (by simp)
  intro p hp
  obtain ⟨q, -, rfl⟩ := mem_map.mp hp
  apply fits_of_mem_splitList (by decide) (by simp)
  intro l hl
  have hline := isLine_of_mem_fill q l hl
  rw [splitList, splitFrom_of_notMem _ l [] hline.newline]
  simpa using hline.fits

end Paragraphs

theorem wrap_faithful (width : ℕ) (s : String) :
    words (wrap width s) = words s ∧
    (∀ line ∈ split "\n" (wrap width s), line.length ≤ width ∨ words line = [line]) ∧
    wrap width (wrap width s) = wrap width s := by
  have hmark : ['\n', '\n'] ≠ [] := cons_ne_nil _ _
  have hwords (ps : List (List Char)) : wordList (['\n', '\n'].intercalate ps) = ps.flatMap wordList :=
    wordsFrom_intercalate hmark (by simp [isBlank]) ps
  refine ⟨?_, ?_, ?_⟩
  · rw [words, words, wrap, String.toList_ofList, hwords, flatMap_map]
    simp only [wordList_fillParagraph]
    rw [← hwords, intercalate_splitList hmark]
  · intro line hline
    obtain ⟨l, hl, rfl⟩ := mem_map.mp hline
    rw [wrap, String.toList_ofList, String.toList_ofList] at hl
    rw [words, String.toList_ofList, String.length_ofList]
    apply (fits_of_mem_lines _ l hl).imp_right
    intro hsolid
    rw [wordList, wordsFrom_of_isSolid hsolid.2 [] (by simpa using hsolid.1)]
    rfl
  · have hwhole : ∀ p ∈ (splitList ['\n', '\n'] s.toList).map (fillParagraph width), IsWhole p := by
      intro p hp
      obtain ⟨q, -, rfl⟩ := mem_map.mp hp
      exact isWhole_intercalate (isLine_of_mem_fill q)
    have hagain (p : List Char) : fillParagraph width (fillParagraph width p) = fillParagraph width p := by
      rw [fillParagraph, wordList_fillParagraph, ← fillParagraph]
    rw [wrap, wrap, String.toList_ofList, splitList_intercalate_of_isWhole ?_ hwhole, map_map]
    · simp only [Function.comp_def, hagain]
    · simpa [splitList] using splitFrom_ne_nil _ _ _ _

end AssetCatalog.Text
