import AssetCatalog.Proofs.Fault
import AssetCatalog.Proofs.Text
import AssetCatalog.Yaml.Document

/-!
# The kinds of plain scalars

A word is a truth value, nothing, or its text; other forms are moments.
-/

namespace AssetCatalog

lemma Date.bounds_of_ofParts? {d : Date} (h : Date.ofParts? d.year d.month d.day = some d) :
    (1 ≤ d.year ∧ d.year ≤ 9999) ∧ (1 ≤ d.month ∧ d.month ≤ 12) ∧ 1 ≤ d.day ∧ d.day ≤ 31 := by
  have hlength : Date.monthLength d.year d.month ≤ 31 := by
    unfold Date.monthLength
    split <;> [split; split] <;> omega
  unfold Date.ofParts? at h
  split at h
  · next hparts =>
    simp only [Bool.and_eq_true, decide_eq_true_eq] at hparts
    omega
  · cases h

namespace Yaml

open List

variable {ds : List Char}
variable {c : Char} {cs : List Char} {n : Nat} {s : String}

/-! ## Texts that are no numbers -/

section Kind

variable {c : Char} {cs : List Char}

lemma text_ne_of_head {s t : String} {d : Char} (hs : s.toList = c :: cs)
    (ht : t.toList = d :: ds) (h : c ≠ d) : s ≠ t := by
  rintro rfl
  rw [hs] at ht
  exact h (List.cons.inj ht).1

lemma notMem_of_any {p : Char → Bool} (hc : p c) (h : ds.any p = false) : c ∉ ds :=
  fun hmem => any_eq_false.mp h c hmem hc

variable (hminus : c ≠ '-') (hplus : c ≠ '+')
include hminus hplus

lemma unsigned_of_ne : unsigned (c :: cs) = c :: cs := by
  unfold unsigned
  split
  · next h => exact absurd (List.cons.inj h).1 hminus
  · next h => exact absurd (List.cons.inj h).1 hplus
  · rfl

/-- A text is no fraction if neither a point nor a colon follows the digits that it starts with. -/
lemma isFloat_eq_false (hpoint : c ≠ '.')
    (h : c.isDigit → ∃ d rest, (c :: cs).drop ((c :: cs).takeWhile isDigitBar).length = d :: rest ∧
      d ≠ '.' ∧ d ≠ ':') : isFloat (c :: cs) = false := by
  have hne (t : String) (ds : List Char) (ht : t.toList = '.' :: ds) : String.ofList (c :: cs) ≠ t :=
    text_ne_of_head String.toList_ofList ht hpoint
  simp only [isFloat, unsigned_of_ne hminus hplus, hne ".inf" _ rfl, hne ".Inf" _ rfl, hne ".INF" _ rfl,
    hne ".nan" _ rfl, hne ".NaN" _ rfl, hne ".NAN" _ rfl, decide_false, Bool.or_self, Bool.false_eq_true,
    if_false]
  split
  · next h => exact absurd (List.cons.inj h).1 hpoint
  · cases hdigit : c.isDigit with
    | false => rfl
    | true =>
      obtain ⟨d, rest, hrest, hd⟩ := h hdigit
      rw [hrest]
      split
      · next h => exact absurd (List.cons.inj h).1 hd.1
      · next h => exact absurd (List.cons.inj h).1 hd.2
      · rfl

/-- A text that does not start with a zero is no whole number if something else than digits stands
before its first colon. -/
lemma isInt_eq_false (hzero : c ≠ '0')
    (h : c.isDigit → ∃ whole parts, Text.splitList [':'] (c :: cs) = whole :: parts ∧
      whole.all isDigitBar = false) : isInt (c :: cs) = false := by
  rw [isInt, unsigned_of_ne hminus hplus]
  split
  · next h => exact absurd (List.cons.inj h).1 hzero
  · next h => exact absurd (List.cons.inj h).1 hzero
  · next h => exact absurd (List.cons.inj h).1 hzero
  · next h => exact absurd (List.cons.inj h).1 hzero
  · next d ds _ _ _ _ heq =>
    obtain rfl := (List.cons.inj heq).1
    cases hdigit : c.isDigit with
    | false => rfl
    | true =>
      obtain ⟨whole, parts, hsplit, hwhole⟩ := h hdigit
      rw [hsplit]
      simp [hwhole]
  · rfl

end Kind

lemma withoutLineEnd_eq (hend : cs.getLast? ≠ some '\n') : withoutLineEnd cs = cs := by
  rw [withoutLineEnd, if_neg]
  simp [hend]

lemma impliedTag_eq (hs : s.toList = c :: cs) (hend : s.toList.getLast? ≠ some '\n')
    (hmark : c ∉ ['-', '+', '.', '<', '~', '=', '!', '&', '*']) (hzero : c ≠ '0')
    (hfloat : c.isDigit → ∃ d rest, (c :: cs).drop ((c :: cs).takeWhile isDigitBar).length = d :: rest ∧
      d ≠ '.' ∧ d ≠ ':')
    (hint : c.isDigit → ∃ whole parts, Text.splitList [':'] (c :: cs) = whole :: parts ∧
      whole.all isDigitBar = false) :
    impliedTag s = standard (if isBool s then "bool"
      else if s ∈ ["null", "Null", "NULL"] then "null"
      else if isTimestamp s.toList then "timestamp" else "str") := by
  have hline : withoutLineEnd s.toList = s.toList := withoutLineEnd_eq hend
  have hfirst (d : Char) (hd : d ∈ ['-', '+', '.', '<', '~', '=', '!', '&', '*']) : c ≠ d :=
    fun h => hmark (h ▸ hd)
  have hne (t : String) (d : Char) (ds : List Char) (ht : t.toList = d :: ds)
      (hd : d ∈ ['-', '+', '.', '<', '~', '=', '!', '&', '*']) : s ≠ t :=
    text_ne_of_head hs ht (hfirst d hd)
  have hempty : s ≠ "" := by
    rintro rfl
    cases hs
  have hminus := hfirst '-' (by decide)
  have hplus := hfirst '+' (by decide)
  have hnumber : isFloat s.toList = false ∧ isInt s.toList = false := by
    rw [hs]
    exact ⟨isFloat_eq_false hminus hplus (hfirst '.' (by decide)) hfloat,
      isInt_eq_false hminus hplus hzero hint⟩
  unfold impliedTag
  simp only [hline, String.ofList_toList, hnumber]
  simp [hne "<<" '<' _ rfl (by decide), hne "~" '~' _ rfl (by decide), hne "=" '=' _ rfl (by decide),
    hne "!" '!' _ rfl (by decide), hne "&" '&' _ rfl (by decide), hne "*" '*' _ rfl (by decide), hempty,
    or_assoc]

lemma form_implied {name : String} (htag : impliedTag s = standard name)
    (hname : name ∈ ["str", "null", "bool", "timestamp"]) :
    (Node.scalar .implied s true).form = .leaf (scalarValue (standard name) s) := by
  have hform : (Node.scalar .implied s true).form =
      if (Node.filling? (impliedTag s)).isSome then .broken
      else .leaf (if Node.isScalarTag (impliedTag s) then
        if impliedTag s = standard "timestamp" && false then throw .wrongKind
        else scalarValue (impliedTag s) s
        else throw .yaml) := by
    rw [Node.form]
    rfl
  have hplain : (Node.filling? (standard name)).isSome = false ∧ Node.isScalarTag (standard name) := by
    fin_cases hname <;> decide
  rw [hform, htag, hplain.1, hplain.2, Bool.and_false]
  rfl

/-! ## Words -/

def startsWord (c : Char) : Bool :=
  !(c.isDigit || ['-', '+', '.', '<', '~', '=', '!', '&', '*'].contains c)

def wordValue (s : String) : Value :=
  if s ∈ ["yes", "Yes", "YES", "true", "True", "TRUE", "on", "On", "ON"] then .bool true
  else if s ∈ ["no", "No", "NO", "false", "False", "FALSE", "off", "Off", "OFF"] then .bool false
  else if s ∈ ["null", "Null", "NULL"] then .null
  else .text s

lemma impliedTag_word (hs : s.toList = c :: cs) (hc : startsWord c)
    (hend : s.toList.getLast? ≠ some '\n') :
    impliedTag s = standard (if isBool s then "bool"
      else if s ∈ ["null", "Null", "NULL"] then "null" else "str") := by
  have hdigit : c.isDigit = false := by
    simp only [startsWord, Bool.not_eq_true', Bool.or_eq_false_iff] at hc
    exact hc.1
  have hmoment : isTimestamp s.toList = false := by
    have hyear : digits 4 4 (c :: cs) = none := by
      simp [digits, hdigit]
    rw [hs, isTimestamp, timestamp?, hyear]
    rfl
  have hnumber : ¬ c.isDigit := by simp [hdigit]
  rw [impliedTag_eq hs hend (notMem_of_any hc (by decide)) (fun h => hnumber (h ▸ rfl))
    (absurd · hnumber) (absurd · hnumber), hmoment]
  rfl

lemma form_word (hs : s.toList = c :: cs) (hc : startsWord c)
    (hend : s.toList.getLast? ≠ some '\n') :
    (Node.scalar .implied s true).form = .leaf (.ok (wordValue s)) := by
  have htag := impliedTag_word hs hc hend
  by_cases hbool : isBool s
  · rw [if_pos hbool] at htag
    rw [form_implied htag (by decide)]
    simp only [isBool, contains_iff_mem] at hbool
    fin_cases hbool <;> rfl
  · rw [if_neg hbool] at htag
    simp only [isBool, contains_iff_mem, mem_cons, not_mem_nil, or_false, not_or] at hbool
    by_cases hnull : s ∈ ["null", "Null", "NULL"]
    · rw [if_pos hnull] at htag
      rw [form_implied htag (by decide)]
      fin_cases hnull <;> rfl
    · rw [if_neg hnull] at htag
      rw [form_implied htag (by decide)]
      simp [wordValue, hbool, hnull, scalarValue, pure, Except.pure]

/-! ## Digits -/

lemma natOf_eq (cs : List Char) : natOf cs = Nat.ofDigitChars 10 cs 0 := by
  simp only [natOf, Nat.ofDigitChars_eq_foldl, Nat.mul_comm 10]
  rfl

lemma toDigits_spec (n : Nat) :
    natOf (Nat.toDigits 10 n) = n ∧ (Nat.toDigits 10 n).all Char.isDigit := by
  rw [natOf_eq, Nat.ofDigitChars_ten_toDigits, all_eq_true]
  exact ⟨rfl, fun c hc => Nat.isDigit_of_mem_toDigits (by decide) (by decide) hc⟩

lemma zeroPadded_spec {width : Nat} (hwidth : 0 < width) (hn : n < 10 ^ width) :
    (zeroPadded width n).toList.length = width ∧ (zeroPadded width n).toList.all Char.isDigit ∧
      natOf (zeroPadded width n).toList = n := by
  have hlength : (Nat.toDigits 10 n).length ≤ width := Nat.toDigits_length 10 n width hwidth hn
  simp only [zeroPadded, String.toList_ofList, natOf_eq, Nat.ofDigitChars_append,
    Nat.ofDigitChars_replicate_zero, Nat.mul_zero, Nat.ofDigitChars_ten_toDigits, length_append,
    length_replicate, all_append, (toDigits_spec n).2]
  exact ⟨Nat.sub_add_cancel hlength, by simp, trivial⟩

lemma exists_toDigits (hn : 0 < n) :
    ∃ c cs, Nat.toDigits 10 n = c :: cs ∧ c.isDigit ∧ c ≠ '0' := by
  induction n using Nat.strong_induction_on with
  | _ n ih =>
    rcases Nat.lt_or_ge n 10 with hlt | hge
    · have hfirst : ∀ d < 10, 0 < d → d.digitChar.isDigit ∧ d.digitChar ≠ '0' := by decide
      exact ⟨_, _, Nat.toDigits_of_lt_base hlt, hfirst n hlt hn⟩
    · obtain ⟨c, cs, hcs, hc⟩ := ih (n / 10) (by omega) (by omega)
      exact ⟨c, cs ++ [(n % 10).digitChar], by rw [Nat.toDigits_of_base_le (by decide) hge, hcs]; rfl, hc⟩

lemma length_toDigits_of_le (hlow : 1000 ≤ n) (hhigh : n ≤ 9999) :
    (Nat.toDigits 10 n).length = 4 := by
  rw [Nat.toDigits_of_base_le (by decide) (by omega), Nat.toDigits_of_base_le (by decide) (by omega),
    Nat.toDigits_of_base_le (by decide) (by omega), Nat.toDigits_of_lt_base (by omega)]
  rfl

/-! ## Moments -/

def isField (width : Nat) (ds : List Char) : Bool := ds.length = width && ds.all Char.isDigit

lemma isField_zeroPadded {width : Nat} (hwidth : 0 < width) (hn : n < 10 ^ width) :
    isField width (zeroPadded width n).toList := by
  obtain ⟨hlength, hdigits, -⟩ := zeroPadded_spec hwidth hn
  simp [isField, hlength, hdigits]

lemma digits_field {least width : Nat} (hds : isField width ds)
    (hleast : least ≤ width) : digits least width (ds ++ cs) = some (ds, cs) := by
  simp only [isField, Bool.and_eq_true, decide_eq_true_eq] at hds
  obtain ⟨rfl, hdigits⟩ := hds
  have hrun : ds.takeWhile Char.isDigit = ds := by
    rw [takeWhile_eq_self_iff]
    simpa using hdigits
  simp only [digits, take_left, hrun, drop_left, if_pos hleast]

def momentText (year month day hour minute second : List Char) : List Char :=
  year ++ '-' :: (month ++ '-' :: (day ++ 'T' :: (hour ++ ':' :: (minute ++ ':' :: (second ++ ['Z'])))))

section Moment

variable {year month day hour minute second : List Char}

lemma timestamp?_momentText (hyear : isField 4 year) (hmonth : isField 2 month)
    (hday : isField 2 day) (hhour : isField 2 hour) (hminute : isField 2 minute)
    (hsecond : isField 2 second) :
    timestamp? (momentText year month day hour minute second) =
      some { year, month, day, time := some (hour, minute, second, []), zone := some none } := by
  have hexpect (c : Char) (cs : List Char) : expect c (c :: cs) = some cs := if_pos rfl
  have hclock : clock? (hour ++ ':' :: (minute ++ ':' :: (second ++ ['Z']))) =
      some ((hour, minute, second, []), some none) := by
    simp only [clock?, hexpect, digits_field hhour (by decide : 1 ≤ 2), digits_field hminute (le_refl 2),
      digits_field hsecond (le_refl 2), Option.bind_eq_bind, Option.bind_some]
    rfl
  have hstart (cs : List Char) : clockStart? 'T' cs = some cs := rfl
  simp only [timestamp?, momentText, hexpect, digits_field hyear (le_refl 4),
    digits_field hmonth (by decide : 1 ≤ 2), digits_field hday (by decide : 1 ≤ 2), hstart, hclock,
    Option.bind_eq_bind, Option.bind_some]

lemma timestamp?_momentText_of_short (hyear : year.all Char.isDigit) (hshort : year.length < 4) :
    timestamp? (momentText year month day hour minute second) = none := by
  have hnone (cs : List Char) : digits 4 4 (year ++ '-' :: cs) = none := by
    have htake : (year ++ '-' :: cs).take 4 = year ++ '-' :: cs.take (3 - year.length) := by
      obtain ⟨n, hn⟩ : ∃ n, 4 - year.length = n + 1 := ⟨3 - year.length, by omega⟩
      rw [take_append, take_of_length_le hshort.le, hn, take_succ_cons]
      congr 3
      omega
    have hrun : (year ++ '-' :: cs.take (3 - year.length)).takeWhile Char.isDigit = year := by
      rw [takeWhile_append_of_pos (by simpa using hyear), takeWhile_cons_of_neg (by decide),
        append_nil]
    simp only [digits, htake, hrun, if_neg hshort.not_ge]
  rw [timestamp?, momentText, hnone]
  rfl

lemma getLast?_momentText : (momentText year month day hour minute second).getLast? = some 'Z' := by
  simp only [momentText, ← append_assoc, ← cons_append]
  rw [getLast?_concat]

lemma notMem_of_isField {width : Nat} (hds : isField width ds) {c : Char}
    (hc : c.isDigit = false) : c ∉ ds := by
  intro hmem
  simp only [isField, Bool.and_eq_true, all_eq_true] at hds
  rw [hds.2 c hmem] at hc
  cases hc

lemma drop_takeWhile_dashed {rest : List Char} (hds : ∀ d ∈ ds, d.isDigit) :
    (ds ++ '-' :: rest).drop ((ds ++ '-' :: rest).takeWhile isDigitBar).length = '-' :: rest := by
  have hbar : ∀ d ∈ ds, isDigitBar d := by
    intro d hd
    rw [isDigitBar, hds d hd, Bool.true_or]
  rw [takeWhile_append_of_pos hbar, takeWhile_cons_of_neg (by decide), append_nil,
    drop_left]

section Year

variable {s : String} {width : Nat} {c : Char} {cs : List Char} (hyear : isField width (c :: cs) = true)
  (hzero : c ≠ '0') (hmonth : isField 2 month = true) (hday : isField 2 day = true)
  (hhour : isField 2 hour = true) (hs : s.toList = momentText (c :: cs) month day hour minute second)
include hyear hzero hmonth hday hhour hs

/-- The kind of a moment, or of what would be one but for the length of its year. -/
lemma impliedTag_momentText :
    impliedTag s = standard (if isTimestamp s.toList then "timestamp" else "str") := by
  have hdigits : ∀ d ∈ c :: cs, d.isDigit := by
    simp only [isField, Bool.and_eq_true, all_eq_true] at hyear
    exact hyear.2
  have hfirst : c.isDigit := hdigits c mem_cons_self
  have hword (words : List String) (hwords : ∀ t ∈ words, (t.toList.headD '0').isDigit = false) :
      s ∉ words := by
    intro hmem
    have hhead := hwords s hmem
    rw [hs] at hhead
    exact Bool.noConfusion (hhead.symm.trans hfirst)
  have hbool : isBool s = false := by
    rw [isBool, contains_eq_mem, decide_eq_false_iff_not]
    exact hword _ (by decide)
  have hint : ∃ whole parts, Text.splitList [':'] (momentText (c :: cs) month day hour minute second) =
      whole :: parts ∧ whole.all isDigitBar = false := by
    have hwhole : ':' ∉ c :: cs ++ '-' :: (month ++ '-' :: (day ++ 'T' :: hour)) := by
      have hcolon : ':'.isDigit = false := by decide
      rw [mem_append, not_or]
      refine ⟨notMem_of_isField hyear hcolon, ?_⟩
      simp [notMem_of_isField hmonth hcolon, notMem_of_isField hday hcolon, notMem_of_isField hhour hcolon]
    have hsplit := Text.splitList_append ':' _ (minute ++ ':' :: (second ++ ['Z'])) hwhole
    have htext : momentText (c :: cs) month day hour minute second =
        (c :: cs ++ '-' :: (month ++ '-' :: (day ++ 'T' :: hour))) ++
          ':' :: (minute ++ ':' :: (second ++ ['Z'])) := by
      simp [momentText]
    exact ⟨_, _, (congrArg (Text.splitList [':']) htext).trans hsplit, by simp [isDigitBar]⟩
  have hend : s.toList.getLast? ≠ some '\n' := by
    rw [hs, getLast?_momentText]
    decide
  rw [impliedTag_eq hs hend (notMem_of_any hfirst (by decide)) hzero
    (fun _ => ⟨'-', _, drop_takeWhile_dashed hdigits, by decide, by decide⟩) (fun _ => hint), hbool, if_neg (hword _ (by decide))]
  rfl

lemma form_momentText_of_short (hshort : width < 4) :
    (Node.scalar .implied s true).form = .leaf (.ok (.text s)) := by
  have hdigits := hyear
  simp only [isField, Bool.and_eq_true, decide_eq_true_eq] at hdigits
  have hmoment : isTimestamp s.toList = false := by
    rw [hs, isTimestamp, timestamp?_momentText_of_short hdigits.2 (hdigits.1 ▸ hshort)]
  have htag := impliedTag_momentText hyear hzero hmonth hday hhour hs
  rw [hmoment] at htag
  exact form_implied htag (by decide)

lemma form_momentText (hwidth : width = 4) (hminute : isField 2 minute)
    (hsecond : isField 2 second) {t : Moment}
    (ht : Moment.ofParts? (Date.ofParts? (natOf (c :: cs)) (natOf month) (natOf day)) (natOf hour)
      (natOf minute) (natOf second) 0 (some 0) = some t) :
    (Node.scalar .implied s true).form = .leaf (.ok (.moment t)) := by
  subst hwidth
  have hfields := timestamp?_momentText hyear hmonth hday hhour hminute hsecond
  have hmoment : isTimestamp s.toList := by
    rw [hs, isTimestamp, hfields]
    rfl
  have hline : withoutLineEnd s.toList = s.toList := by
    refine withoutLineEnd_eq ?_
    rw [hs, getLast?_momentText]
    decide
  have htag := impliedTag_momentText hyear hzero hmonth hday hhour hs
  rw [hmoment] at htag
  rw [form_implied htag (by decide)]
  have hvalue : timestampValue s = .ok (.moment t) := by
    have hmicros : micros [] = 0 := by decide
    rw [timestampValue, hline, hs, hfields]
    simp [hmicros, ht, pure, Except.pure]
  exact congrArg Form.leaf hvalue

end Year

end Moment

end Yaml

end AssetCatalog
