import AssetCatalog.Version.Semantic
import AssetCatalog.Proofs.Text

/-! # The characters of a semantic version -/

namespace AssetCatalog.Version

open List Text

variable {c : Char} {cs : List Char} {s : String}

def isVersionChar (c : Char) : Bool :=
  isDecimal c || isMark c || c = '.' || c = '+' || c = '\n'

lemma isDecimal_of_isDigit (h : c.isDigit) : isDecimal c := by
  simp [isDecimal, decimalValue?, toNat_lt_of_isDigit h, h]

lemma isDigit_of_between (h : ('1' ≤ c && c ≤ '9')) : c.isDigit := by
  simp only [Bool.and_eq_true, decide_eq_true_eq] at h
  simp only [Char.isDigit, Bool.and_eq_true, decide_eq_true_eq]
  exact ⟨le_trans (by decide : '0'.val ≤ '1'.val) h.1, h.2⟩

lemma isNumber_cases (h : isNumber cs) :
    ∃ c rest, cs = c :: rest ∧ c.isDigit ∧ rest.all isDecimal := by
  unfold isNumber at h
  split at h
  · exact ⟨'0', [], rfl, by decide, rfl⟩
  · rename_i c rest _
    rw [Bool.and_eq_true] at h
    exact ⟨c, rest, rfl, isDigit_of_between h.1, h.2⟩
  · cases h

lemma isVersionChar_of_isNumber (h : isNumber cs) (hc : c ∈ cs) : isVersionChar c := by
  obtain ⟨d, rest, rfl, hd, hrest⟩ := isNumber_cases h
  have hdecimal : isDecimal c := by
    rcases mem_cons.mp hc with rfl | hc
    · exact isDecimal_of_isDigit hd
    · exact all_eq_true.mp hrest c hc
  simp [isVersionChar, hdecimal]

lemma isVersionChar_of_mark (h : (isMark c || c.isDigit)) : isVersionChar c := by
  rcases Bool.or_eq_true _ _ ▸ h with h | h
  · simp [isVersionChar, h]
  · simp [isVersionChar, isDecimal_of_isDigit h]

lemma isVersionChar_of_isReleasePart (h : isReleasePart cs) (hc : c ∈ cs) : isVersionChar c := by
  rcases Bool.or_eq_true _ _ ▸ h with h | h
  · exact isVersionChar_of_isNumber h hc
  · rw [← takeWhile_append_dropWhile (p := isDecimal) (l := cs), mem_append] at hc
    rcases hc with hc | hc
    · have hdecimal := mem_takeWhile_imp hc
      simp [isVersionChar, hdecimal]
    · split at h
      · rename_i d rest hdrop
        rw [Bool.and_eq_true] at h
        rw [hdrop] at hc
        rcases mem_cons.mp hc with rfl | hc
        · exact isVersionChar_of_mark (by simp [h.1])
        · exact isVersionChar_of_mark (all_eq_true.mp h.2 c hc)
      · cases h

lemma isVersionChar_of_isBuildPart (h : isBuildPart cs) (hc : c ∈ cs) : isVersionChar c := by
  rw [isBuildPart, Bool.and_eq_true] at h
  exact isVersionChar_of_mark (all_eq_true.mp h.2 c hc)

lemma cutAt_cases (m : Char) {part : List Char → Bool}
    (h : ((cutAt m cs).2.map fun b => (splitList ['.'] b).all part).getD true) :
    ∃ tail, cs = (cutAt m cs).1 ++ tail ∧
      (tail = [] ∨ ∃ b, tail = m :: b ∧ (splitList ['.'] b).all part) := by
  unfold cutAt at h ⊢
  rcases hcut : cutList? [m] cs with _ | ⟨a, b⟩
  · exact ⟨[], (append_nil cs).symm, .inl rfl⟩
  · rw [hcut] at h
    exact ⟨m :: b, by simpa using append_of_cutList? hcut, .inr ⟨b, rfl, h⟩⟩

lemma withoutLineEnd_cases (cs : List Char) :
    ∃ last, cs = withoutLineEnd cs ++ last ∧ (last = [] ∨ last = ['\n']) := by
  unfold withoutLineEnd
  split
  · rename_i h
    exact ⟨['\n'], (dropLast_append_getLast? _ h).symm, .inr rfl⟩
  · exact ⟨[], (append_nil cs).symm, .inl rfl⟩

lemma isSemantic_cases (h : isSemantic s) :
    ∃ core release build last, s.toList = core ++ release ++ build ++ last ∧
      (splitList ['.'] core).length = 3 ∧ (splitList ['.'] core).all isNumber ∧
      (release = [] ∨ ∃ r, release = '-' :: r ∧ (splitList ['.'] r).all isReleasePart) ∧
      (build = [] ∨ ∃ b, build = '+' :: b ∧ (splitList ['.'] b).all isBuildPart) ∧
      (last = [] ∨ last = ['\n']) := by
  simp only [isSemantic, Bool.and_eq_true, decide_eq_true_eq] at h
  obtain ⟨⟨⟨hlength, hnumbers⟩, hrelease⟩, hbuild⟩ := h
  obtain ⟨last, hs, hlast⟩ := withoutLineEnd_cases s.toList
  obtain ⟨build, hmain, hbuild⟩ := cutAt_cases '+' hbuild
  obtain ⟨release, hcore, hrelease⟩ := cutAt_cases '-' hrelease
  refine ⟨_, release, build, last, ?_, hlength, hnumbers, hrelease, hbuild, hlast⟩
  rw [← hcore, ← hmain, ← hs]

lemma exists_digit_of_isSemantic (h : isSemantic s) : ∃ c cs, s.toList = c :: cs ∧ c.isDigit := by
  obtain ⟨core, release, build, last, hs, hlength, hnumbers, _⟩ := isSemantic_cases h
  rcases hsplit : splitList ['.'] core with _ | ⟨p, ps⟩
  · rw [hsplit] at hlength
    cases hlength
  · rw [hsplit, all_cons, Bool.and_eq_true] at hnumbers
    obtain ⟨c, rest, rfl, hc, _⟩ := isNumber_cases hnumbers.1
    obtain ⟨t, rfl⟩ := append_of_splitList hsplit
    exact ⟨c, _, by rw [hs]; rfl, hc⟩

lemma isVersionChar_of_isSemantic (h : isSemantic s) (hc : c ∈ s.toList) : isVersionChar c := by
  obtain ⟨core, release, build, last, hs, _, hnumbers, hrelease, hbuild, hlast⟩ := isSemantic_cases h
  have hpieces {cs : List Char} {p : List Char → Bool}
      (hp : ∀ {piece : List Char}, p piece → c ∈ piece → isVersionChar c)
      (hall : (splitList ['.'] cs).all p) (hc : c ∈ cs) : isVersionChar c := by
    rcases mem_splitList '.' hc with rfl | ⟨piece, hpiece, hc⟩
    · decide
    · exact hp (all_eq_true.mp hall piece hpiece) hc
  rw [hs, mem_append, mem_append, mem_append] at hc
  rcases hc with ((hc | hc) | hc) | hc
  · exact hpieces isVersionChar_of_isNumber hnumbers hc
  · rcases hrelease with rfl | ⟨r, rfl, hr⟩
    · cases hc
    · rcases mem_cons.mp hc with rfl | hc
      · decide
      · exact hpieces isVersionChar_of_isReleasePart hr hc
  · rcases hbuild with rfl | ⟨b, rfl, hb⟩
    · cases hc
    · rcases mem_cons.mp hc with rfl | hc
      · decide
      · exact hpieces isVersionChar_of_isBuildPart hb hc
  · rcases hlast with rfl | rfl
    · cases hc
    · rw [mem_singleton.mp hc]
      decide

end AssetCatalog.Version
