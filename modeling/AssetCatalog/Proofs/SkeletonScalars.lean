import AssetCatalog.Proofs.SkeletonNames
import AssetCatalog.Proofs.YamlLexer
import AssetCatalog.Proofs.YamlNodes
import AssetCatalog.Skeleton.Template

/-!
# The scalars of new metadata

Names and tags are words with hyphens; the date is a moment if its year has four digits.
-/

namespace AssetCatalog

open Yaml List Text

variable {c : Char} {now : Moment}

namespace Skeleton

/-! ## Characters -/

/-- Whether a character may stand in a word of a line. -/
def isText (c : Char) : Bool := isInline c && !isSpaceOrEnd c && isAllowed c

/-- The marks above ASCII that control, end a line, give the order of bytes, or are no characters. -/
def marks : List Nat := range' 0x80 0x20 ++ [0x2028, 0x2029, 0xfeff, 0xfffe, 0xffff]

/-- No mark is a letter or a number. The texts of the tables are made lists of characters first, since
the kernel takes long to decode them. -/
lemma covers_marks : ∀ n ∈ marks,
    covers Text.Table.letters n = false ∧ covers Text.Table.numbers n = false := by
  rw [Text.Table.letters, Text.Table.numbers, Text.Table.ranges, Text.Table.ranges, Text.Table.words,
    Text.Table.words]
  repeat rw [String.toList_ofList]
  decide +kernel

lemma isText_of_isWordPart (h : isWordPart c) : isText c := by
  by_cases hsmall : c.toNat < 0x80
  · exact of_ascii (fun c => isWordPart c → isText c) (by decide +kernel) hsmall h
  · have hother (n : Nat) (hn : n ∈ marks) : c.toNat ≠ n := by
      rintro rfl
      obtain ⟨hletters, hnumbers⟩ := covers_marks c.toNat hn
      have hword : c = '_' := by
        simpa [isWordPart, isAlphanumeric, hletters, hnumbers, hsmall] using h
      exact hsmall (by rw [hword]; decide)
    have hlarge : 0xa0 ≤ c.toNat := by
      by_contra hcontrol
      exact hother c.toNat (mem_append_left _ (mem_range'_1.mpr (by omega))) rfl
    have hne (d : Char) (hd : d.toNat < 0xa0) : c ≠ d := by
      rintro rfl
      omega
    have hvalid : c.toNat < 0xd800 ∨ 0xdfff < c.toNat ∧ c.toNat < 0x110000 := c.valid
    have hbreak : isBreakOrEnd c = false := by
      simp [isBreakOrEnd, isBreak, hne endMark (by decide), hne '\r' (by decide), hne '\n' (by decide),
        hother 0x2028 (by decide), hother 0x2029 (by decide)]
      omega
    have hallowed : isAllowed c := by
      have hlast := hother 0xfffe (by decide)
      have hlast' := hother 0xffff (by decide)
      simp only [isAllowed, Bool.or_eq_true, Bool.and_eq_true, decide_eq_true_eq]
      omega
    simp [isText, isInline, isSpaceOrEnd, hbreak, hallowed, hother 0xfeff (by decide), hne ' ' (by decide),
      hne '\t' (by decide)]

lemma isWordPart_of_isDigit (h : c.isDigit) : isWordPart c := by
  simp [isWordPart, isAlphanumeric, toNat_lt_of_isDigit h, Char.isAlphanum, h]

lemma isPlain_of_isText {w : List Char} (hfirst : isWordPart (w.headD endMark))
    (hw : w.all isText) (hlast : w.getLast? ≠ some ':') : isPlain w := by
  simp only [isText, all_eq_true, Bool.and_eq_true] at hw
  simp only [isPlain, hfirst, Bool.and_eq_true, all_eq_true, decide_eq_true_eq, true_and]
  exact ⟨fun c hc => (hw c hc).1, hlast⟩

/-! ## Names and tags -/

/-- A text of letters, numbers, underscores and hyphens that starts as a word does. -/
structure IsHyphenated (s : String) : Prop where
  first : ∃ c cs, s.toList = c :: cs ∧ isWordPart c = true ∧ startsWord c = true
  parts : ∀ c ∈ s.toList, isWordPart c = true ∨ c = '-'

namespace IsHyphenated

variable {s : String} (h : IsHyphenated s)
include h

lemma all_isText : s.toList.all isText := by
  rw [all_eq_true]
  intro c hc
  rcases h.parts c hc with hpart | rfl
  · exact isText_of_isWordPart hpart
  · decide

lemma getLast?_ne (hc : isWordPart c = false) (hhyphen : c ≠ '-') :
    s.toList.getLast? ≠ some c := by
  intro hlast
  rcases h.parts c (mem_of_getLast? hlast) with hpart | hmark
  · rw [hpart] at hc
    cases hc
  · exact hhyphen hmark

lemma isPlain : Yaml.isPlain s.toList := by
  obtain ⟨c, cs, hs, hpart, -⟩ := h.first
  refine isPlain_of_isText ?_ h.all_isText (h.getLast?_ne (by decide) (by decide))
  rw [hs]
  exact hpart

lemma isWordText : Node.isWordText s := by
  obtain ⟨c, cs, hs, -, hstart⟩ := h.first
  have hlast := h.getLast?_ne (c := '\n') (by decide) (by decide)
  rw [Node.isWordText, decide_eq_true hlast, hs]
  simpa using hstart

end IsHyphenated

lemma startsWord_of_small {p : Char → Bool}
    (hp : ∀ n < 128, p (Char.ofNat n) → startsWord (Char.ofNat n)) (hc : p c) :
    startsWord c := by
  by_cases hsmall : c.toNat < 128
  · exact of_ascii (fun c => p c → startsWord c) hp hsmall hc
  · have hdigit : c.isDigit = false := Bool.eq_false_iff.mpr (mt toNat_lt_of_isDigit hsmall)
    have hmark : c ∉ ['-', '+', '.', '<', '~', '=', '!', '&', '*'] := by
      intro hmem
      fin_cases hmem <;> exact hsmall (by decide)
    simp [startsWord, hdigit, hmark]

lemma isHyphenated_of_checkName {name : String} (h : checkName name = .ok ()) : IsHyphenated name := by
  have hword := isWord_of_checkName h
  obtain ⟨c, cs, hs⟩ := exists_cons_of_ne_nil (mt String.toList_eq_nil_iff.mp hword.ne_empty)
  simp only [checkName, guard_eq_ok except_throw_bind_ne_ok, except_seq_eq_ok,
    guard_eq_ok except_throw_ne_ok] at h
  obtain ⟨-, -, hidentifier, -⟩ := h
  simp only [Bool.not_eq_true', Bool.not_eq_false, hs, isIdentifier, Bool.and_eq_true] at hidentifier
  refine ⟨⟨c, cs, hs, hword.parts c (hs ▸ mem_cons_self), ?_⟩, fun c hc => .inl (hword.parts c hc)⟩
  exact startsWord_of_small (by decide +kernel) hidentifier.1

lemma isHyphenated_replace {category : String} (h : checkCategory category = .ok ()) :
    IsHyphenated (replace "_" "-" category) := by
  obtain ⟨hword, hletter⟩ := isWord_of_checkCategory h
  obtain ⟨c, cs, hs⟩ := exists_cons_of_ne_nil (mt String.toList_eq_nil_iff.mp hword.ne_empty)
  rw [startsWithLetter, hs] at hletter
  change isLetter c = true at hletter
  have hfirst : c ≠ '_' := by
    rintro rfl
    exact absurd hletter (by decide +kernel)
  have htext : (replace "_" "-" category).toList =
      category.toList.map fun c => if c = '_' then '-' else c := toList_replace '_' '-' category
  constructor
  · refine ⟨c, _, by rw [htext, hs, map_cons, if_neg hfirst], hword.parts c (hs ▸ mem_cons_self), ?_⟩
    exact startsWord_of_small (by decide +kernel) hletter
  · intro d hd
    rw [htext, mem_map] at hd
    obtain ⟨e, he, rfl⟩ := hd
    by_cases hmark : e = '_'
    · exact .inr (if_pos hmark)
    · rw [if_neg hmark]
      exact .inl (hword.parts e he)

lemma isHyphenated_of_mem_tags {t : Draft} (h : checkCategory t.category = .ok ()) {tag : String}
    (htag : tag ∈ t.tags) : IsHyphenated tag := by
  rw [Draft.tags, mem_cons] at htag
  rcases htag with rfl | htag
  · exact isHyphenated_replace h
  · split at htag
    · rw [mem_singleton.mp htag]
      exact ⟨⟨'p', _, rfl, by decide, by decide⟩, fun c hc => by fin_cases hc <;> decide⟩
    · cases htag

/-! ## The date -/

/-- A moment that a clock of universal time can show. -/
structure IsClock (now : Moment) : Prop where
  date : Date.ofParts? now.date.year now.date.month now.date.day = some now.date
  hour : now.hour < 24
  minute : now.minute < 60
  second : now.second < 60
  micro : now.micro < 1000000
  offset : now.offset = some 0

lemma toList_stamp (now : Moment) : (stamp now).toList = momentText (Nat.toDigits 10 now.date.year)
    (zeroPadded 2 now.date.month).toList (zeroPadded 2 now.date.day).toList (zeroPadded 2 now.hour).toList
    (zeroPadded 2 now.minute).toList (zeroPadded 2 now.second).toList := by
  simp [stamp, momentText, Nat.repr]

lemma IsClock.date_bounds (h : IsClock now) :
    (1 ≤ now.date.year ∧ now.date.year ≤ 9999) ∧ now.date.month < 100 ∧ now.date.day < 100 := by
  have hbounds := Date.bounds_of_ofParts? h.date
  omega

lemma IsClock.ofParts?_eq (h : IsClock now) :
    Moment.ofParts? (Date.ofParts? now.date.year now.date.month now.date.day) now.hour now.minute
      now.second 0 (some 0) = some { now with micro := 0 } := by
  rw [h.date, ← h.offset]
  simp [Moment.ofParts?, h.hour, h.minute, h.second]

def stampValue (now : Moment) : Value :=
  if 1000 ≤ now.date.year then .moment { now with micro := 0 } else .text (stamp now)

lemma form_stamp (h : IsClock now) :
    (Node.word (stamp now)).form = .leaf (.ok (stampValue now)) := by
  obtain ⟨hyear, hmonth, hday⟩ := h.date_bounds
  have hhour : now.hour < 100 := h.hour.trans (by decide)
  have hminute : now.minute < 100 := h.minute.trans (by decide)
  have hsecond : now.second < 100 := h.second.trans (by decide)
  obtain ⟨c, cs, hdigits, hc, hzero⟩ := exists_toDigits hyear.1
  have htext := toList_stamp now
  have hfield : isField (Nat.toDigits 10 now.date.year).length (c :: cs) := by
    simp [isField, ← hdigits, (toDigits_spec now.date.year).2]
  rw [hdigits] at htext
  have hpadded {n : Nat} (hn : n < 100) : isField 2 (zeroPadded 2 n).toList :=
    isField_zeroPadded (by decide) hn
  have hnumber {n : Nat} (hn : n < 100) : natOf (zeroPadded 2 n).toList = n :=
    (zeroPadded_spec (by decide) hn).2.2
  have hvalue : natOf (c :: cs) = now.date.year := by rw [← hdigits, (toDigits_spec now.date.year).1]
  by_cases hlong : 1000 ≤ now.date.year
  · rw [stampValue, if_pos hlong]
    refine form_momentText hfield hzero (hpadded hmonth) (hpadded hday) (hpadded hhour) htext
      (length_toDigits_of_le hlong hyear.2) (hpadded hminute) (hpadded hsecond) ?_
    rw [hvalue, hnumber hmonth, hnumber hday, hnumber hhour, hnumber hminute, hnumber hsecond]
    exact h.ofParts?_eq
  · rw [stampValue, if_neg hlong]
    have hshort : (Nat.toDigits 10 now.date.year).length ≤ 3 :=
      Nat.toDigits_length 10 _ 3 (by decide) (by omega)
    exact form_momentText_of_short hfield hzero (hpadded hmonth) (hpadded hday) (hpadded hhour) htext
      (by omega)

lemma isText_stamp (h : IsClock now) : (stamp now).toList.all isText := by
  obtain ⟨-, hmonth, hday⟩ := h.date_bounds
  have hdigit {ds : List Char} (hds : ds.all Char.isDigit) : ds.all isText := by
    rw [all_eq_true] at hds ⊢
    exact fun c hc => isText_of_isWordPart (isWordPart_of_isDigit (hds c hc))
  have hpadded {n : Nat} (hn : n < 100) : (zeroPadded 2 n).toList.all isText :=
    hdigit (zeroPadded_spec (by decide) hn).2.1
  have hmark : isText '-' ∧ isText 'T' ∧ isText ':' ∧ isText 'Z' := by decide
  simp only [toList_stamp, momentText, all_append, all_cons, all_nil, hdigit (toDigits_spec _).2,
    hpadded hmonth, hpadded hday, hpadded (h.hour.trans (by decide)), hpadded (h.minute.trans (by decide)),
    hpadded (h.second.trans (by decide)), hmark, Bool.and_self]

lemma isPlain_stamp (h : IsClock now) : isPlain (stamp now).toList := by
  obtain ⟨c, cs, hdigits, hc, -⟩ := exists_toDigits h.date_bounds.1.1
  refine isPlain_of_isText ?_ (isText_stamp h) ?_
  · rw [toList_stamp, hdigits]
    exact isWordPart_of_isDigit hc
  · rw [toList_stamp, getLast?_momentText]
    decide

end Skeleton

end AssetCatalog
