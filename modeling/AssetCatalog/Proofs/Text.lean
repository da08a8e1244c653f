import Mathlib
import AssetCatalog.Text.Basic
import AssetCatalog.Text.Case

/-!
# Cutting texts

Pieces at a separator, lines, line ends, and first occurrences; the case of ASCII texts.
-/

namespace AssetCatalog.Text

open List

variable {x : Char}
variable {c : Char} {cs p q sub : List Char}
variable (sep : Char)
variable (a b : String)

lemma takeWhile_append_cons {p : Char → Bool} (hx : p x = false) (l t : List Char) :
    (l ++ x :: t).takeWhile p = l.takeWhile p := by
  induction l with
  | nil => simp [hx]
  | cons c l ih => by_cases hc : p c <;> simp [hc, ih]

lemma isPrefixOf_append_cons {w : List Char} (hx : x ∉ w) (l t : List Char) :
    w.isPrefixOf (l ++ x :: t) = w.isPrefixOf l := by
  induction w generalizing l with
  | nil => simp
  | cons c w ih =>
    simp only [mem_cons, not_or] at hx
    cases l with
    | nil => simp [List.isPrefixOf, Ne.symm hx.1]
    | cons d l => simp [List.isPrefixOf, ih hx.2]

lemma splitFrom_append (a b acc : List Char) :
    splitFrom [sep] (a ++ sep :: b) 0 acc = splitFrom [sep] a 0 acc ++ splitFrom [sep] b 0 [] := by
  induction a generalizing acc with
  | nil => simp [splitFrom]
  | cons c a ih =>
    by_cases hc : c = sep
    · simp [splitFrom, hc, ih]
    · simp [splitFrom, Ne.symm hc, ih]

lemma splitFrom_of_notMem (a acc : List Char) (ha : sep ∉ a) :
    splitFrom [sep] a 0 acc = [acc.reverse ++ a] := by
  induction a generalizing acc with
  | nil => simp [splitFrom]
  | cons c a ih =>
    simp only [mem_cons, not_or] at ha
    have hne : ¬ [sep].isPrefixOf (c :: a) := by simp [ha.1]
    rw [splitFrom, if_neg hne, ih (c :: acc) ha.2]
    simp

lemma splitList_append (a b : List Char) (ha : sep ∉ a) :
    splitList [sep] (a ++ sep :: b) = a :: splitList [sep] b := by
  rw [splitList, splitFrom_append, splitFrom_of_notMem sep a [] ha]
  rfl

lemma splitFrom_ne_nil (sep cs : List Char) (n : Nat) (acc : List Char) :
    splitFrom sep cs n acc ≠ [] := by
  induction cs generalizing n acc with
  | nil => simp [splitFrom]
  | cons c cs ih =>
    cases n with
    | zero =>
      rw [splitFrom]
      split
      · simp
      · exact ih 0 (c :: acc)
    | succ n => exact ih n acc

lemma intercalate_splitFrom (sep new : Char) (cs acc : List Char) :
    [new].intercalate (splitFrom [sep] cs 0 acc) =
      acc.reverse ++ cs.map fun c => if c = sep then new else c := by
  induction cs generalizing acc with
  | nil => simp [splitFrom]
  | cons c cs ih =>
    rw [splitFrom]
    split
    · rename_i hpre
      obtain rfl : sep = c := by simpa using hpre
      obtain ⟨p, ps, hps⟩ := exists_cons_of_ne_nil (splitFrom_ne_nil [sep] cs 0 [])
      have hrest := ih []
      simp only [length_singleton, Nat.sub_self, hps] at hrest ⊢
      rw [intercalate_cons_cons, hrest]
      simp
    · rename_i hpre
      have hne : ¬ c = sep := fun h => hpre (by simp [h])
      rw [ih (c :: acc)]
      simp [hne]

lemma intercalate_splitFrom_self {sep : List Char} (hsep : sep ≠ []) (cs : List Char) (n : ℕ)
    (acc : List Char) : sep.intercalate (splitFrom sep cs n acc) = acc.reverse ++ cs.drop n := by
  fun_induction splitFrom sep cs n acc with
  | case1 => simp
  | case2 c cs n acc ih => simpa using ih
  | case3 c cs acc hpre ih =>
    obtain ⟨t, ht⟩ := isPrefixOf_iff_prefix.mp hpre
    obtain ⟨d, sep, rfl⟩ := exists_cons_of_ne_nil hsep
    rw [cons_append] at ht
    obtain ⟨rfl, rfl⟩ := cons.inj ht
    obtain ⟨p, ps, hps⟩ := exists_cons_of_ne_nil
      (splitFrom_ne_nil (d :: sep) (sep ++ t) ((d :: sep).length - 1) [])
    rw [hps] at ih ⊢
    rw [intercalate_cons_cons, ih]
    simp
  | case4 c cs acc hpre ih => simpa using ih

lemma intercalate_splitList {sep : List Char} (hsep : sep ≠ []) (cs : List Char) :
    sep.intercalate (splitList sep cs) = cs :=
  intercalate_splitFrom_self hsep cs 0 []

lemma join_split (s : String) :
    join (String.singleton sep) (split (String.singleton sep) s) = s := by
  apply String.toList_inj.mp
  simpa [join, split, String.toList_intercalate, Function.comp_def] using
    intercalate_splitList (cons_ne_nil sep []) s.toList

lemma toList_replace (old new : Char) (s : String) :
    (replace (String.singleton old) (String.singleton new) s).toList =
      s.toList.map fun c => if c = old then new else c := by
  simp only [replace, join, split, splitList, String.toList_intercalate, String.toList_singleton, map_map]
  have hpieces (pieces : List (List Char)) : pieces.map (String.toList ∘ String.ofList) = pieces := by
    simp [Function.comp_def]
  rw [hpieces]
  exact intercalate_splitFrom old new s.toList []

lemma append_of_splitList {sep : Char} {ps : List (List Char)} (h : splitList [sep] cs = p :: ps) :
    ∃ t, cs = p ++ t := by
  rw [← intercalate_splitList (cons_ne_nil sep []) cs, h]
  cases ps with
  | nil => exact ⟨[], by simp⟩
  | cons q qs => exact ⟨_, by rw [intercalate_cons_cons, append_assoc]⟩

lemma mem_splitList (hc : c ∈ cs) : c = sep ∨ ∃ p ∈ splitList [sep] cs, c ∈ p := by
  rw [← intercalate_splitList (cons_ne_nil sep []) cs] at hc
  generalize splitList [sep] cs = pieces at hc ⊢
  induction pieces with
  | nil => cases hc
  | cons p ps ih =>
    cases ps with
    | nil => exact .inr ⟨p, by simp, by simpa using hc⟩
    | cons q qs =>
      rw [intercalate_cons_cons, mem_append, mem_append, mem_singleton] at hc
      rcases hc with (hc | hc) | hc
      · exact .inr ⟨p, by simp, hc⟩
      · exact .inl hc
      · exact (ih hc).imp_right fun ⟨r, hr, hc⟩ => ⟨r, mem_cons_of_mem p hr, hc⟩

lemma split_ne_nil (sep s : String) : split sep s ≠ [] := by
  rw [split, splitList]
  simpa using splitFrom_ne_nil sep.toList s.toList 0 []

lemma split_of_notMem (a : String) (ha : sep ∉ a.toList) :
    split (String.singleton sep) a = [a] := by
  rw [split, splitList, String.toList_singleton, splitFrom_of_notMem sep _ [] ha]
  simp

lemma split_append_sep :
    split (String.singleton sep) (a ++ String.singleton sep ++ b) =
      split (String.singleton sep) a ++ split (String.singleton sep) b := by
  simp [split, splitList, splitFrom_append]

lemma split_append (ha : sep ∉ a.toList) :
    split (String.singleton sep) (a ++ String.singleton sep ++ b) =
      a :: split (String.singleton sep) b := by
  rw [split_append_sep, split_of_notMem sep a ha]
  rfl

lemma join_cons_cons (sep p q : String) (qs : List String) :
    join sep (p :: q :: qs) = p ++ sep ++ join sep (q :: qs) := by
  simp [join, String.intercalate_cons_cons]

lemma split_join (pieces : List String) (hne : pieces ≠ []) (h : ∀ p ∈ pieces, sep ∉ p.toList) :
    split (String.singleton sep) (join (String.singleton sep) pieces) = pieces := by
  induction pieces with
  | nil => exact absurd rfl hne
  | cons p ps ih =>
    have hp : sep ∉ p.toList := h p (mem_cons_self ..)
    cases ps with
    | nil => exact split_of_notMem sep p hp
    | cons q qs =>
      rw [join_cons_cons, split_append sep p _ hp,
        ih (by simp) fun r hr => h r (mem_cons_of_mem _ hr)]

lemma split_join_append (pieces : List String) (rest : String)
    (hne : pieces ≠ []) (h : ∀ p ∈ pieces, sep ∉ p.toList) :
    split (String.singleton sep)
        (join (String.singleton sep) pieces ++ String.singleton sep ++ rest) =
      pieces ++ split (String.singleton sep) rest := by
  rw [split_append_sep, split_join sep pieces hne h]

lemma cutLast?_eq_none {c : Char} {s : String} (h : cutLast? c s = none) : c ∉ s.toList := by
  unfold cutLast? at h
  dsimp only at h
  split at h
  · next hnone =>
    intro hc
    simpa using dropWhile_eq_nil_iff.mp hnone c (mem_reverse.mpr hc)
  · cases h

lemma cutLast?_eq_some_iff {c : Char} {s a b : String} :
    cutLast? c s = some (a, b) ↔ s.toList = a.toList ++ c :: b.toList ∧ c ∉ b.toList := by
  constructor
  · intro h
    unfold cutLast? at h
    dsimp only at h
    split at h
    · cases h
    · next d before hback =>
      cases h
      have hcut := takeWhile_append_dropWhile (p := (· ≠ c)) (l := s.toList.reverse)
      have hd : d = c := by
        have hhead := head?_dropWhile_not (· ≠ c) s.toList.reverse
        rw [hback] at hhead
        simpa using hhead
      rw [hback, hd, ← reverse_inj, reverse_reverse] at hcut
      constructor
      · simpa using hcut.symm
      · intro hc
        rw [String.toList_ofList, mem_reverse] at hc
        simpa using mem_takeWhile_imp hc
  · intro ⟨hs, hb⟩
    have hkeep : ∀ d ∈ b.toList.reverse, (decide (d ≠ c)) = true := by
      intro d hd
      simpa using ne_of_mem_of_not_mem (mem_reverse.mp hd) hb
    simp only [cutLast?, hs, reverse_append, reverse_cons, append_assoc, singleton_append]
    rw [dropWhile_append_of_pos hkeep, takeWhile_append_of_pos hkeep]
    simp

lemma le_iff : le a b ↔ a ≤ b := by
  simp only [le, Bool.not_eq_true', decide_eq_false_iff_not, not_lt]

protected lemma le_trans (a b c : String) (hab : le a b) (hbc : le b c) : le a c := by
  rw [le_iff] at *
  exact hab.trans hbc

protected lemma le_total : (le a b || le b a) := by
  rw [Bool.or_eq_true, le_iff, le_iff]
  exact LinearOrder.le_total a b

lemma pairwise_mergeSort {α : Type} (key : α → String) (xs : List α) :
    (xs.mergeSort fun a b => le (key a) (key b)).Pairwise fun a b => key a ≤ key b :=
  (List.pairwise_mergeSort (fun a b c => Text.le_trans (key a) (key b) (key c))
    (fun a b => Text.le_total (key a) (key b)) xs).imp fun {a b} h => (le_iff (key a) (key b)).mp h

lemma join_concat (sep : String) (pieces : List String) (p : String) :
    join sep (pieces ++ [p]) = (if pieces = [] then "" else join sep pieces ++ sep) ++ p := by
  by_cases h : pieces = []
  · simp [h, join]
  · simp [h, join, String.intercalate_append_of_ne_nil h]

lemma mem_toList_join {sep : String} {pieces : List String} (h : c ∈ (join sep pieces).toList) :
    c ∈ sep.toList ∨ ∃ p ∈ pieces, c ∈ p.toList := by
  induction pieces with
  | nil => simp [join] at h
  | cons p ps ih =>
    cases ps with
    | nil => exact .inr ⟨p, by simp, h⟩
    | cons q qs =>
      rw [join_cons_cons, String.toList_append, String.toList_append, mem_append,
        mem_append] at h
      rcases h with (h | h) | h
      · exact .inr ⟨p, by simp, h⟩
      · exact .inl h
      · rcases ih h with h | ⟨r, hr, h⟩
        · exact .inl h
        · exact .inr ⟨r, mem_cons_of_mem _ hr, h⟩

lemma carriageReturn_notMem_unifyNewlines (cs : List Char) : '\r' ∉ unifyNewlines cs := by
  fun_induction unifyNewlines cs with
  | case1 => simp
  | case2 cs ih => simpa using ih
  | case3 cs _ ih => simpa using ih
  | case4 c cs _ hc ih =>
    simp only [mem_cons, not_or]
    exact ⟨fun h => hc h.symm, ih⟩

lemma unifyNewlines_eq_self (h : '\r' ∉ cs) : unifyNewlines cs = cs := by
  fun_induction unifyNewlines cs with
  | case1 => rfl
  | case2 cs ih => simp at h
  | case3 cs _ ih => simp at h
  | case4 c cs _ hc ih =>
    simp only [mem_cons, not_or] at h
    rw [ih h.2]

lemma unifyNewlines_eq_self_iff (cs : List Char) : unifyNewlines cs = cs ↔ '\r' ∉ cs := by
  constructor
  · intro h
    rw [← h]
    exact carriageReturn_notMem_unifyNewlines cs
  · exact unifyNewlines_eq_self

/-- A text that does not occur in `a`, and that has no `x`, is not met before that `x`. -/
lemma cutList?_append_of_notMem {a : List Char} (ha : occursIn sub a = false)
    (hx : x ∉ sub) (b : List Char) :
    cutList? sub (a ++ x :: b) = (cutList? sub b).map fun (p, q) => (a ++ x :: p, q) := by
  induction a with
  | nil =>
    have hne : ¬ sub.isPrefixOf (x :: b) := by
      intro h
      rcases sub with _ | ⟨y, sub⟩
      · simp [occursIn] at ha
      · simp at h
        simp [h.1] at hx
    rw [nil_append, cutList?, if_neg hne]
    rfl
  | cons c a ih =>
    simp only [occursIn, Bool.or_eq_false_iff] at ha
    have hne : ¬ sub.isPrefixOf (c :: (a ++ x :: b)) := by
      intro h
      have hpre : sub <+: (c :: a) ++ x :: b := isPrefixOf_iff_prefix.mp h
      rcases Nat.lt_or_ge (c :: a).length sub.length with hlt | hle
      · apply hx
        obtain ⟨rest, hrest⟩ := hpre
        have hget : sub[(c :: a).length]? = some x := by
          calc
            sub[(c :: a).length]? = (sub ++ rest)[(c :: a).length]? :=
              (getElem?_append_left hlt).symm
            _ = some x := by simp [hrest]
        exact mem_of_getElem? hget
      · have hshort := prefix_of_prefix_length_le hpre (prefix_append _ _) hle
        rw [ isPrefixOf_iff_prefix.mpr hshort] at ha
        cases ha.1
    rw [cons_append, cutList?, if_neg hne, ih ha.2, Option.map_map]
    rfl

lemma cutList?_cons_eq_some (h : cutList? sub (c :: cs) = some (p, q)) :
    (p = [] ∧ c :: cs = sub ++ q) ∨
      (¬ sub <+: c :: cs ∧ ∃ p', p = c :: p' ∧ cutList? sub cs = some (p', q)) := by
  rw [cutList?] at h
  split at h
  · next hpre =>
    cases h
    obtain ⟨q, hq⟩ := isPrefixOf_iff_prefix.mp hpre
    exact .inl ⟨rfl, by simp [← hq]⟩
  · next hpre =>
    obtain ⟨⟨p', q'⟩, hcut, heq⟩ := Option.map_eq_some_iff.mp h
    cases heq
    exact .inr ⟨fun hp => hpre ( isPrefixOf_iff_prefix.mpr hp), p', rfl, hcut⟩

lemma cutList?_nil_eq_some (h : cutList? sub [] = some (p, q)) :
    sub = [] ∧ p = [] ∧ q = [] := by
  rw [cutList?] at h
  split at h
  · next hsub =>
    cases h
    exact ⟨isEmpty_iff.mp hsub, rfl, rfl⟩
  · cases h

lemma append_of_cutList? (h : cutList? sub cs = some (p, q)) : cs = p ++ sub ++ q := by
  induction cs generalizing p with
  | nil =>
    obtain ⟨rfl, rfl, rfl⟩ := cutList?_nil_eq_some h
    rfl
  | cons c cs ih =>
    obtain ⟨rfl, hcs⟩ | ⟨_, p', rfl, hcut⟩ := cutList?_cons_eq_some h
    · exact hcs
    · rw [ih hcut]
      simp

lemma cutList?_self_append (hsub : sub ≠ []) (rest : List Char) :
    cutList? sub (sub ++ rest) = some ([], rest) := by
  obtain ⟨c, cs, rfl⟩ := exists_cons_of_ne_nil hsub
  have hpre : (c :: cs).isPrefixOf (c :: (cs ++ rest)) :=
    isPrefixOf_iff_prefix.mpr (prefix_append (c :: cs) rest)
  rw [cons_append, cutList?, if_pos hpre, ← cons_append, drop_left]

lemma occursIn_eq_false_iff (sub cs : List Char) :
    occursIn sub cs = false ↔ cutList? sub cs = none := by
  induction cs with
  | nil => simp [cutList?, occursIn]
  | cons c cs ih =>
    rw [occursIn, cutList?, Bool.or_eq_false_iff, ih]
    cases sub.isPrefixOf (c :: cs) with
    | false => simp
    | true => simp

lemma cutList?_append_of_eq_some (h : cutList? sub cs = some (p, q)) (hsub : sub ≠ [])
    (rest : List Char) : cutList? sub (cs ++ rest) = some (p, q ++ rest) := by
  induction cs generalizing p with
  | nil => exact absurd (cutList?_nil_eq_some h).1 hsub
  | cons c cs ih =>
    obtain ⟨rfl, hcs⟩ | ⟨hpre, p', rfl, hcut⟩ := cutList?_cons_eq_some h
    · have hpre : sub.isPrefixOf (c :: (cs ++ rest)) := by
        rw [ isPrefixOf_iff_prefix, ← cons_append, hcs, append_assoc]
        exact prefix_append _ _
      rw [cons_append, cutList?, if_pos hpre, ← cons_append, hcs]
      simp
    · have hlen : sub.length ≤ (c :: cs).length := by
        rw [append_of_cutList? hcut]
        simp
        omega
      have hne : ¬ sub.isPrefixOf (c :: (cs ++ rest)) := by
        rw [ isPrefixOf_iff_prefix, ← cons_append]
        intro hlong
        exact hpre (prefix_of_prefix_length_le hlong (prefix_append _ _) hlen)
      rw [cons_append, cutList?, if_neg hne, ih hcut]
      rfl

/-- A line: characters that end no line, and behind them nothing, a character that ends a line, or a
carriage return with a line feed. -/
private inductive IsTextLine : List Char → Prop
  | bare {body : List Char} (h : ∀ c ∈ body, isLineEnd c = false) : IsTextLine body
  | ended {body : List Char} (h : ∀ c ∈ body, isLineEnd c = false) {c : Char}
      (hc : isLineEnd c = true) : IsTextLine (body ++ [c])
  | doubly {body : List Char} (h : ∀ c ∈ body, isLineEnd c = false) : IsTextLine (body ++ ['\r', '\n'])

lemma isTextLine_of_mem_linesFrom (cs acc : List Char)
    (hacc : ∀ c ∈ acc, isLineEnd c = false) {l : List Char} (hl : l ∈ linesFrom cs acc) :
    IsTextLine l := by
  have hrev : ∀ c ∈ acc.reverse, isLineEnd c = false := by simpa using hacc
  fun_induction linesFrom cs acc with
  | case1 => simp at hl
  | case2 acc =>
    rw [mem_singleton.mp hl]
    exact .bare hrev
  | case3 cs acc ih =>
    rcases mem_cons.mp hl with rfl | hl
    · simpa using IsTextLine.doubly hrev
    · exact ih (by simp) hl (by simp)
  | case4 c cs acc _ hc ih =>
    rcases mem_cons.mp hl with rfl | hl
    · simpa using IsTextLine.ended hrev hc
    · exact ih (by simp) hl (by simp)
  | case5 c cs acc _ hc ih =>
    have hcons : ∀ d ∈ c :: acc, isLineEnd d = false := by
      intro d hd
      rcases mem_cons.mp hd with rfl | hd
      · simpa using hc
      · exact hacc d hd
    exact ih hcons hl fun d hd => hcons d (mem_reverse.mp hd)

lemma isLineEnd_of_mem_lines {s l : String} (hl : l ∈ lines s) (hc : c ∈ l.toList) :
    isLineEnd c = false := by
  rw [lines, mem_map] at hl
  obtain ⟨line, hline, rfl⟩ := hl
  have hform := isTextLine_of_mem_linesFrom s.toList [] (by simp) hline
  rw [String.toList_ofList] at hc
  cases hform with
  | bare h =>
    split at hc
    · next r hr =>
      rw [reverse_eq_iff] at hr
      exact h c (by simp_all)
    · next d r _ hr =>
      rw [reverse_eq_iff] at hr
      have hd : isLineEnd d = false := h d (by simp [hr])
      rw [hd] at hc
      exact h c (by simpa using hc)
    · simp at hc
  | @ended body h d hend =>
    split at hc
    · next r hr =>
      rw [reverse_append, reverse_singleton, singleton_append] at hr
      obtain ⟨-, hbody⟩ := List.cons.inj hr
      rw [reverse_eq_iff] at hbody
      exact h c (by simp_all)
    · next e r _ hr =>
      rw [reverse_append, reverse_singleton, singleton_append] at hr
      obtain ⟨rfl, rfl⟩ := List.cons.inj hr
      rw [if_pos hend, reverse_reverse] at hc
      exact h c hc
    · simp at hc
  | doubly h =>
    simp only [reverse_append, reverse_cons, reverse_nil, nil_append,
      cons_append, reverse_reverse] at hc
    exact h c hc

/-! ## ASCII -/

lemma toNat_lt_of_isDigit (hc : c.isDigit) : c.toNat < 128 := by
  rw [Char.isDigit_iff_toNat] at hc
  exact hc.2.trans_lt (by decide)

lemma of_ascii (p : Char → Prop) (hp : ∀ n < 128, p (Char.ofNat n)) (hc : c.toNat < 128) : p c := by
  have hn := hp c.toNat hc
  rwa [Char.ofNat_toNat] at hn

lemma map_eq_self {α : Type} {f : α → α} {xs : List α} (h : ∀ x ∈ xs, f x = x) : xs.map f = xs :=
  (map_congr_left h).trans (map_id' xs)

lemma lowerFrom_ascii (hcs : ∀ c ∈ cs, c.toNat < 128) (before rest : List Char) :
    lowerFrom before (cs ++ rest) = cs.map Char.toLower ++ lowerFrom (cs.reverse ++ before) rest := by
  induction cs generalizing before with
  | nil => rfl
  | cons c cs ih =>
    obtain ⟨hc, hcs⟩ := forall_mem_cons.mp hcs
    have hsigma : c ≠ 'Σ' := by
      rintro rfl
      exact absurd hc (by decide)
    rw [cons_append, lowerFrom, lowerWithin, if_neg hsigma, lowerOf, if_pos hc, ih hcs]
    simp

end AssetCatalog.Text
