import AssetCatalog.Readme.Title
import AssetCatalog.Proofs.Wrapping

/-!
# Titles

The title of a name is its words, each in the form that a title has, with one space between two. What
has that form already is left as it is.
-/

namespace AssetCatalog

open List

namespace Text

variable {s : String} {c : Char} {cs : List Char}

/-! ## Words and capitals -/

lemma wordsFrom_map {blank : Char → Bool} {x : Char} (hx : blank x) (mark : Char → Bool)
    (cs acc : List Char) :
    wordsFrom blank (cs.map fun c => if mark c then x else c) acc =
      wordsFrom (fun c => blank c || mark c) cs acc := by
  induction cs generalizing acc with
  | nil => cases acc <;> rfl
  | cons c cs ih => cases hm : mark c <;> simp [wordsFrom, hm, hx, ih]

lemma flatten_wordsFrom (blank : Char → Bool) (cs acc : List Char) :
    (wordsFrom blank cs acc).flatten = acc.reverse ++ cs.filter fun c => !blank c := by
  fun_induction wordsFrom blank cs acc with
  | case1 => rfl
  | case2 acc hne => simp
  | case3 c cs acc hc hempty ih => simp_all
  | case4 c cs acc hc hempty ih => simp_all
  | case5 c cs acc hc ih => simp_all

lemma toList_upper (hs : ∀ c ∈ s.toList, c.toNat < 128) :
    (upper s).toList = s.toList.map Char.toUpper := by
  rw [upper, String.toList_ofList, map_eq_flatMap]
  exact flatMap_congr fun c hc => if_pos (hs c hc)

lemma toList_capitalize (hs : s.toList = c :: cs) (hascii : ∀ c ∈ s.toList, c.toNat < 128) :
    (capitalize s).toList = c.toUpper :: cs.map Char.toLower := by
  rw [hs] at hascii
  obtain ⟨hc, hcs⟩ := forall_mem_cons.mp hascii
  have hlower := lowerFrom_ascii hcs [c] []
  rw [append_nil] at hlower
  simp only [capitalize, hs]
  rw [String.toList_ofList, titleOf, if_pos hc, hlower]
  simp [lowerFrom]

end Text

namespace Readme

open Text

/-! ## Words of a name -/

section Names

variable {cs : List Char} {s : String}

/-- What stands between the words of a name, and in none of them. -/
def divides (c : Char) : Bool := isBlank c || (c = '_' || c = '-')

def nameWords (s : String) : List String :=
  (wordsFrom divides (splitCamel s.toList) []).map String.ofList

lemma formatTitle_eq (s : String) : formatTitle s = join " " ((nameWords s).map titleWord) := by
  rw [formatTitle, words, wordList, String.toList_ofList, nameWords,
    wordsFrom_map (by decide) fun c => c = '_' || c = '-']
  rfl

lemma splitCamel_append (a b : List Char) :
    splitCamel (a ++ ' ' :: b) = splitCamel a ++ ' ' :: splitCamel b := by
  have hspace (b : List Char) : splitCamel (' ' :: b) = ' ' :: splitCamel b := by
    cases b <;> simp [splitCamel]
  fun_induction splitCamel a with
  | case1 x y a hcase ih => simpa [splitCamel, hcase] using ih
  | case2 x y a hcase ih => simpa [splitCamel, hcase] using ih
  | case3 a hshort =>
    rcases a with _ | ⟨x, _ | ⟨y, a⟩⟩
    · exact hspace b
    · simp [splitCamel, hspace]
    · exact absurd rfl (hshort x y a)

lemma splitCamel_eq_self (h : ∀ c ∈ cs.tail, c.isUpper = false) : splitCamel cs = cs := by
  fun_induction splitCamel cs with
  | case1 x y cs hcase ih => simp [h y (by simp)] at hcase
  | case2 x y cs hcase ih => rw [ih fun c hc => h c (mem_cons_of_mem y hc)]
  | case3 cs hshort => rfl

lemma filter_splitCamel (cs : List Char) :
    ((splitCamel cs).filter fun c => !divides c) = cs.filter fun c => !divides c := by
  have hspace : divides ' ' := by decide
  fun_induction splitCamel cs with
  | case1 x y cs hcase ih => simp [filter_cons, hspace, ih]
  | case2 x y cs hcase ih => simp [filter_cons, ih]
  | case3 cs hshort => rfl

lemma flatMap_nameWords (s : String) :
    (nameWords s).flatMap String.toList = s.toList.filter fun c => !divides c := by
  rw [← filter_splitCamel, nameWords, flatMap_map]
  simpa [flatMap_id'] using flatten_wordsFrom divides (splitCamel s.toList) []

lemma nameWords_join {ws : List String}
    (h : ∀ w ∈ ws, IsSolid divides w.toList ∧ splitCamel w.toList = w.toList) :
    nameWords (join " " ws) = ws := by
  have hwhole : splitCamel (join " " ws).toList = (join " " ws).toList := by
    induction ws with
    | nil => rfl
    | cons w ws ih =>
      obtain ⟨⟨-, hw⟩, h⟩ := forall_mem_cons.mp h
      cases ws with
      | nil => simpa [join] using hw
      | cons v ws =>
        have hjoin : (join " " (w :: v :: ws)).toList =
            w.toList ++ ' ' :: (join " " (v :: ws)).toList := by
          simp [join_cons_cons]
        rw [hjoin, splitCamel_append, hw, ih h]
  have hsolid : ∀ w ∈ ws.map String.toList, IsSolid divides w := by
    rw [forall_mem_map]
    exact fun w hw => (h w hw).1
  rw [nameWords, hwhole, join, String.toList_intercalate,
    wordsFrom_intercalate (by decide) (by simp [divides, isBlank]), flatMap_words hsolid]
  simp [Function.comp_def]

/-- A word of a name in ASCII. -/
structure IsNameWord (w : String) : Prop where
  solid : IsSolid divides w.toList
  ascii : ∀ c ∈ w.toList, c.toNat < 128

lemma isNameWord_of_mem_nameWords {w : String} (hs : ∀ c ∈ s.toList, c.toNat < 128)
    (hw : w ∈ nameWords s) : IsNameWord w := by
  constructor
  · obtain ⟨cs, hcs, rfl⟩ := mem_map.mp hw
    rw [String.toList_ofList]
    exact isSolid_of_mem_wordsFrom _ [] (forall_mem_nil _) hcs
  · intro c hc
    have hkept : c ∈ (nameWords s).flatMap String.toList := mem_flatMap.mpr ⟨w, hw, hc⟩
    rw [flatMap_nameWords] at hkept
    exact hs c (mem_filter.mp hkept).1

end Names

/-! ## Words of a title -/

section Titles

variable {s w : String}

/-- A word of a title: an acronym, or another word with no small letter in front and no capital
behind its first character. -/
structure IsTitleWord (w : String) : Prop extends IsNameWord w where
  cased : w ∈ acronyms ∨ upper w ∉ acronyms ∧ (∀ c ∈ w.toList.head?, c.isLower = false) ∧
    ∀ c ∈ w.toList.tail, c.isUpper = false

/-- Words with one space between two of them, and none around them. -/
def IsTitle (t : String) : Prop := ∃ ws : List String, t = join " " ws ∧ ∀ w ∈ ws, IsTitleWord w

/-- The characters of a text that are in its words, in capitals. -/
def spelling (s : String) : List Char := (s.toList.filter fun c => !divides c).map Char.toUpper

lemma acronyms_spelled : ∀ w ∈ acronyms, splitCamel w.toList = w.toList ∧ w.toList ≠ [] ∧
    ∀ c ∈ w.toList, divides c = false ∧ c.toNat < 128 ∧ c.isLower = false := by
  simp [acronyms, splitCamel, divides, isBlank]

lemma isTitleWord_of_mem_acronyms (h : w ∈ acronyms) : IsTitleWord w := by
  obtain ⟨-, hne, hw⟩ := acronyms_spelled w h
  exact ⟨⟨⟨hne, fun c hc => (hw c hc).1⟩, fun c hc => (hw c hc).2.1⟩, .inl h⟩

lemma titleWord_of_notMem (h : upper w ∉ acronyms) : titleWord w = capitalize w := by
  simp [titleWord, h]

namespace IsTitleWord

variable (h : IsTitleWord w)
include h

lemma splitCamel_eq : splitCamel w.toList = w.toList := by
  rcases h.cased with hmem | ⟨-, -, hrest⟩
  · exact (acronyms_spelled w hmem).1
  · exact splitCamel_eq_self hrest

lemma titleWord_eq : titleWord w = w := by
  rcases h.cased with hmem | ⟨hother, hfirst, hrest⟩
  · have hupper : upper w = w := by
      rw [← String.toList_inj, toList_upper h.ascii]
      refine map_eq_self fun c hc => Char.toUpper_eq_of_not_isLower ?_
      simp [((acronyms_spelled w hmem).2.2 c hc).2.2]
    simp [titleWord, hupper, hmem]
  · obtain ⟨c, cs, hw⟩ := exists_cons_of_ne_nil h.solid.1
    rw [hw] at hfirst hrest
    have hc : c.toUpper = c := Char.toUpper_eq_of_not_isLower (by simp [hfirst c rfl])
    have hcs : cs.map Char.toLower = cs :=
      map_eq_self fun d hd => Char.toLower_eq_of_not_isUpper (by simp [hrest d hd])
    rw [titleWord_of_notMem hother, ← String.toList_inj, toList_capitalize hw h.ascii, hc, hcs, hw]

end IsTitleWord

namespace IsNameWord

variable (h : IsNameWord w)
include h

lemma map_toUpper_titleWord : (titleWord w).toList.map Char.toUpper = w.toList.map Char.toUpper := by
  by_cases hmem : upper w ∈ acronyms
  · simp [titleWord, hmem, toList_upper h.ascii]
  · obtain ⟨c, cs, hw⟩ := exists_cons_of_ne_nil h.solid.1
    rw [titleWord_of_notMem hmem, toList_capitalize hw h.ascii, hw]
    simp

lemma capitalize : IsNameWord (capitalize w) := by
  obtain ⟨c, cs, hw⟩ := exists_cons_of_ne_nil h.solid.1
  have htitle := toList_capitalize hw h.ascii
  have hfrom : ∀ d ∈ (Text.capitalize w).toList, ∃ e ∈ w.toList, d = e.toUpper ∨ d = e.toLower := by
    simp only [htitle, hw, mem_cons, mem_map]
    grind
  have hkept : ∀ d ∈ (Text.capitalize w).toList, divides d = false ∧ d.toNat < 128 := by
    intro d hd
    obtain ⟨e, he, hcase⟩ := hfrom d hd
    obtain ⟨hupper, hlower⟩ := of_ascii (fun e =>
        (divides e.toUpper = divides e ∧ e.toUpper.toNat < 128) ∧
          divides e.toLower = divides e ∧ e.toLower.toNat < 128)
      (by decide +kernel) (h.ascii e he)
    rw [h.solid.2 e he] at hupper hlower
    rcases hcase with rfl | rfl
    · exact hupper
    · exact hlower
  exact ⟨⟨by simp [htitle], fun d hd => (hkept d hd).1⟩, fun d hd => (hkept d hd).2⟩

lemma isTitleWord : IsTitleWord (titleWord w) := by
  by_cases hmem : upper w ∈ acronyms
  · simpa [titleWord, hmem] using isTitleWord_of_mem_acronyms hmem
  · have hsame := h.map_toUpper_titleWord
    rw [titleWord_of_notMem hmem] at hsame ⊢
    have hupper : upper (Text.capitalize w) = upper w := by
      rw [← String.toList_inj, toList_upper h.capitalize.ascii, toList_upper h.ascii, hsame]
    obtain ⟨c, cs, hw⟩ := exists_cons_of_ne_nil h.solid.1
    have htitle := toList_capitalize hw h.ascii
    exact ⟨h.capitalize, .inr ⟨hupper ▸ hmem, by simp [htitle], by simp [htitle]⟩⟩

end IsNameWord

/-- The title of a name in ASCII is a title with the same spelling, and is its own title. -/
theorem formatTitle_settled (s : String) (hs : ∀ c ∈ s.toList, c.toNat < 128) :
    formatTitle (formatTitle s) = formatTitle s ∧ IsTitle (formatTitle s) ∧
      spelling (formatTitle s) = spelling s := by
  have hname (w : String) (hw : w ∈ nameWords s) : IsNameWord w := isNameWord_of_mem_nameWords hs hw
  have htitle : ∀ w ∈ (nameWords s).map titleWord, IsTitleWord w := by
    rw [forall_mem_map]
    exact fun w hw => (hname w hw).isTitleWord
  have hwords : nameWords (formatTitle s) = (nameWords s).map titleWord := by
    rw [formatTitle_eq]
    exact nameWords_join fun w hw => ⟨(htitle w hw).solid, (htitle w hw).splitCamel_eq⟩
  refine ⟨?_, ⟨_, formatTitle_eq s, htitle⟩, ?_⟩
  · rw [formatTitle_eq (formatTitle s), hwords, map_eq_self fun w hw => (htitle w hw).titleWord_eq,
      ← formatTitle_eq]
  · rw [spelling, spelling, ← flatMap_nameWords, ← flatMap_nameWords, hwords, flatMap_map,
      map_flatMap, map_flatMap]
    exact flatMap_congr fun w hw => (hname w hw).map_toUpper_titleWord

theorem formatTitle_settled_mixed :
    (∀ c ∈ "my_kfpClientID--2Xy\tapi".toList, c.toNat < 128) ∧
      formatTitle "my_kfpClientID--2Xy\tapi" = "My KFP Client ID 2xy API" ∧
        formatTitle "My KFP Client ID 2xy API" = "My KFP Client ID 2xy API" ∧
          IsTitle "My KFP Client ID 2xy API" := by
  have hs : ∀ c ∈ "my_kfpClientID--2Xy\tapi".toList, c.toNat < 128 := by simp
  have htitle : formatTitle "my_kfpClientID--2Xy\tapi" = "My KFP Client ID 2xy API" := by decide +kernel
  obtain ⟨hsame, hform, -⟩ := formatTitle_settled _ hs
  rw [htitle] at hsame hform
  exact ⟨hs, htitle, hsame, hform⟩

end Titles

end Readme

end AssetCatalog
