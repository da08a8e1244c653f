import AssetCatalog.Freshness.Stamp
import AssetCatalog.Proofs.YamlScalars

/-!
# Reading the text of a moment

A moment with an offset is written and read again exactly if it has no fraction of a second.
-/

namespace AssetCatalog

open List Moment

variable {o : Int} {t : Moment} {cs : List Char} {n : Nat}

/-- The moments that the calendar and the clock have, less than a day from universal time. -/
structure Moment.IsProper (t : Moment) : Prop where
  date : Date.ofParts? t.date.year t.date.month t.date.day = some t.date
  hour : t.hour < 24
  minute : t.minute < 60
  second : t.second < 60
  micro : t.micro < 1000000
  offset : ∀ o, t.offset = some o → (o.natAbs : Int) < dayLength

namespace Freshness

/-! ## Fields -/

lemma readField_cons (shape : List Slot) (shapes : List (List Slot)) (cs : List Char) :
    readField (shape :: shapes) cs = (readShape shape 0 cs).or (readField shapes cs) := by
  rw [readField, findSome?_cons]
  cases readShape shape 0 cs <;> rfl

/-- A shape looks at no more characters than it has slots. -/
lemma readShape_append {shape : List Slot} (h : shape.length ≤ cs.length) (k : Nat)
    (rest : List Char) :
    readShape shape k (cs ++ rest) = (readShape shape k cs).map fun r => (r.1, r.2 ++ rest) := by
  induction shape generalizing cs k with
  | nil => rfl
  | cons s ss ih =>
    cases cs with
    | nil => cases h
    | cons c cs =>
      rw [cons_append, readShape, readShape, Option.map_bind]
      congr 1
      funext d
      exact ih (Nat.le_of_succ_le_succ h) _

lemma readField_append {shapes : List (List Slot)}
    (h : ∀ shape ∈ shapes, shape.length ≤ cs.length) (rest : List Char) :
    readField shapes (cs ++ rest) = (readField shapes cs).map fun r => (r.1, r.2 ++ rest) := by
  induction shapes with
  | nil => rfl
  | cons shape shapes ih =>
    rw [forall_mem_cons] at h
    rw [readField_cons, readField_cons, readShape_append h.1, ih h.2, Option.map_or]

lemma decimalValue?_of_isDigit {c : Char} (hc : c.isDigit) :
    Text.decimalValue? c = some (c.toNat - 48) := by
  rw [Text.decimalValue?, if_pos (Text.toNat_lt_of_isDigit hc), if_pos hc]
  rfl

lemma readShape_decimals {ds : List Char} (hds : ds.all Char.isDigit) (k : Nat) :
    readShape (replicate ds.length .decimal) k ds =
      some (ds.foldl (fun n c => n * 10 + (c.toNat - 48)) k, []) := by
  induction ds generalizing k with
  | nil => rfl
  | cons d ds ih =>
    rw [all_cons, Bool.and_eq_true] at hds
    rw [length_cons, replicate_succ, readShape, Slot.value?, decimalValue?_of_isDigit hds.1,
      Option.bind_some, ih hds.2, foldl_cons]

lemma readField_year (hn : n ≤ 9999) (rest : List Char) :
    readField yearShapes ((zeroPadded 4 n).toList ++ rest) = some (n, rest) := by
  obtain ⟨hlength, hdigits, hvalue⟩ := Yaml.zeroPadded_spec (by decide) (by omega : n < 10 ^ 4)
  have hread := readShape_decimals hdigits 0
  rw [hlength, ← Yaml.natOf, hvalue] at hread
  have hshapes : yearShapes = [replicate 4 .decimal] := rfl
  rw [readField_append (by simp [hshapes, hlength]), hshapes, readField_cons, hread]
  rfl

lemma toList_zeroPadded_two (hn : n < 100) :
    (zeroPadded 2 n).toList = [(n / 10).digitChar, (n % 10).digitChar] := by
  rw [zeroPadded, String.toList_ofList]
  revert n
  decide +kernel

/-- A field of two digits is tried on each number that it may write. -/
lemma readField_two {shapes : List (List Slot)} {low high n : Nat}
    (hshapes : (∀ shape ∈ shapes, shape.length ≤ 2) ∧ high ≤ 100)
    (hread : ∀ n < high, low ≤ n →
      readField shapes [(n / 10).digitChar, (n % 10).digitChar] = some (n, []))
    (hlow : low ≤ n) (hhigh : n < high) (rest : List Char) :
    readField shapes ((zeroPadded 2 n).toList ++ rest) = some (n, rest) := by
  rw [toList_zeroPadded_two (hhigh.trans_le hshapes.2), readField_append hshapes.1,
    hread n hhigh hlow]
  rfl

lemma readShape_two {shape : List Slot} {high n : Nat} (hshape : shape.length ≤ 2 ∧ high ≤ 100)
    (hread : ∀ n < high,
      readShape shape 0 [(n / 10).digitChar, (n % 10).digitChar] = some (n, []))
    (hhigh : n < high) (rest : List Char) :
    readShape shape 0 ((zeroPadded 2 n).toList ++ rest) = some (n, rest) := by
  rw [toList_zeroPadded_two (hhigh.trans_le hshape.2), readShape_append hshape.1, hread n hhigh]
  rfl

section

variable (rest : List Char)

lemma readField_month (hlow : 1 ≤ n) (hhigh : n ≤ 12) :
    readField monthShapes ((zeroPadded 2 n).toList ++ rest) = some (n, rest) :=
  readField_two (by decide) (by decide) hlow (Nat.lt_succ_of_le hhigh) rest

lemma readField_day (hlow : 1 ≤ n) (hhigh : n ≤ 31) :
    readField dayShapes ((zeroPadded 2 n).toList ++ rest) = some (n, rest) :=
  readField_two (by decide) (by decide) hlow (Nat.lt_succ_of_le hhigh) rest

lemma readField_hour (hn : n < 24) :
    readField hourShapes ((zeroPadded 2 n).toList ++ rest) = some (n, rest) :=
  readField_two (by decide) (by decide) n.zero_le hn rest

lemma readField_minute (hn : n < 60) :
    readField minuteShapes ((zeroPadded 2 n).toList ++ rest) = some (n, rest) :=
  readField_two (by decide) (by decide) n.zero_le hn rest

lemma readField_second (hn : n < 60) :
    readField secondShapes ((zeroPadded 2 n).toList ++ rest) = some (n, rest) :=
  readField_two (by decide) (by decide) n.zero_le hn rest

end

/-! ## Offsets -/

lemma readMillionths_zeroPadded {m : Nat} (hm : m < 1000000) :
    readMillionths ('.' :: (zeroPadded 6 m).toList) = (m, []) := by
  obtain ⟨hlength, hdigits, hvalue⟩ := Yaml.zeroPadded_spec (by decide) (show m < 10 ^ 6 from hm)
  generalize (zeroPadded 6 m).toList = ds at hlength hdigits hvalue ⊢
  rw [all_eq_true] at hdigits
  have hall : (ds.take 6).takeWhile Text.isDecimal = ds := by
    rw [take_of_length_le (by omega), takeWhile_eq_self_iff]
    intro c hc
    rw [Text.isDecimal, decimalValue?_of_isDigit (hdigits c hc)]
    rfl
  have hnumber : ds.foldl (fun n c => n * 10 + (Text.decimalValue? c).getD 0) 0 = m := by
    rw [← hvalue, Yaml.natOf]
    apply foldl_ext
    intro n c hc
    rw [decimalValue?_of_isDigit (hdigits c hc)]
    rfl
  have hfull : ds.isEmpty = false := by
    cases ds with
    | nil => cases hlength
    | cons => rfl
  simp only [readMillionths, hall, hfull, hnumber, hlength, Bool.false_eq_true, if_false]
  simp [hlength]

def offsetEnd (seconds micros : Nat) : List Char :=
  if seconds = 0 && micros = 0 then []
  else ':' :: ((zeroPadded 2 seconds).toList ++
    if micros = 0 then [] else '.' :: (zeroPadded 6 micros).toList)

lemma toList_offsetText (o : Int) : (offsetText o).toList =
    (if o < 0 then '-' else '+') :: ((zeroPadded 2 (o.natAbs / 1000000 / 3600)).toList ++
      ':' :: ((zeroPadded 2 (o.natAbs / 1000000 / 60 % 60)).toList ++
        offsetEnd (o.natAbs / 1000000 % 60) (o.natAbs % 1000000))) := by
  have hsign : (if o < 0 then "-" else "+").toList = [if o < 0 then '-' else '+'] := by
    split <;> rfl
  by_cases hwhole : o.natAbs / 1000000 % 60 = 0 ∧ o.natAbs % 1000000 = 0
  · simp [offsetText, offsetEnd, hwhole, hsign]
  · by_cases hmicros : o.natAbs % 1000000 = 0
    · have hseconds : ¬ o.natAbs / 1000000 % 60 = 0 := fun h => hwhole ⟨h, hmicros⟩
      simp [offsetText, offsetEnd, hmicros, hseconds, hsign]
    · simp [offsetText, offsetEnd, hmicros, hsign]

lemma readOffsetSize_text (hours minutes seconds micros : Nat) (hhours : hours < 100)
    (hminutes : minutes < 60) (hseconds : seconds < 60) (hmicros : micros < 1000000) :
    readOffsetSize ((zeroPadded 2 hours).toList ++
      ':' :: ((zeroPadded 2 minutes).toList ++ offsetEnd seconds micros)) =
      some (((hours * 60 + minutes) * 60 + seconds) * 1000000 + micros, []) := by
  have hdigits (rest : List Char) :
      readShape [.decimal, .decimal] 0 ((zeroPadded 2 hours).toList ++ rest) = some (hours, rest) :=
    readShape_two (by decide) (by decide) hhours rest
  have hsixtieth {n : Nat} (hn : n < 60) (rest : List Char) :
      readShape sixtieth 0 ((zeroPadded 2 n).toList ++ rest) = some (n, rest) :=
    readShape_two (by decide) (by decide) hn rest
  simp only [readOffsetSize, hdigits, bind, Option.bind_some, takeColon, hsixtieth hminutes]
  by_cases hwhole : seconds = 0 ∧ micros = 0
  · simp [offsetEnd, hwhole, sixtieth, readShape]
  · have hend : offsetEnd seconds micros = ':' :: ((zeroPadded 2 seconds).toList ++
        if micros = 0 then [] else '.' :: (zeroPadded 6 micros).toList) := by
      simp [offsetEnd, hwhole]
    have hfraction : readMillionths (if micros = 0 then [] else '.' :: (zeroPadded 6 micros).toList) =
        (micros, []) := by
      split
      · next hnone => rw [hnone]; rfl
      · exact readMillionths_zeroPadded hmicros
    rw [hend]
    simp only [hsixtieth hseconds, if_true, hfraction]

lemma within_some (hn : (n : Int) < dayLength) (sign : Int) (cs : List Char) :
    readOffset.within (some (n, cs)) sign = some (sign * n, cs) := by
  rw [readOffset.within, Option.bind_some]
  dsimp only
  rw [if_pos hn]

lemma readOffset_offsetText (ho : (o.natAbs : Int) < dayLength) :
    readOffset (offsetText o).toList = some (o, []) := by
  have hday : dayLength = 86400000000 := rfl
  have hsize : ((o.natAbs / 1000000 / 3600 * 60 + o.natAbs / 1000000 / 60 % 60) * 60 +
      o.natAbs / 1000000 % 60) * 1000000 + o.natAbs % 1000000 = o.natAbs := by omega
  have hread := readOffsetSize_text (o.natAbs / 1000000 / 3600) (o.natAbs / 1000000 / 60 % 60)
    (o.natAbs / 1000000 % 60) (o.natAbs % 1000000) (by omega) (by omega) (by omega) (by omega)
  rw [hsize] at hread
  rw [toList_offsetText]
  split
  · next hneg =>
    rw [readOffset, hread, within_some ho, Int.ofNat_natAbs_of_nonpos hneg.le, neg_one_mul, neg_neg]
  · next hpos =>
    rw [readOffset, hread, within_some ho, Int.natAbs_of_nonneg (not_lt.mp hpos), one_mul]

/-! ## Formats -/

lemma readAs_mark (m : Char) (ps : List Piece) (f : Fields) (c : Char) (cs : List Char) :
    readAs (.mark m :: ps) f (c :: cs) = if c.toLower = m.toLower then readAs ps f cs else none := by
  rw [readAs, readPiece]
  split <;> rfl

lemma readAs_date {d : Date} (h : Date.ofParts? d.year d.month d.day = some d) (ps : List Piece)
    (f : Fields) (rest : List Char) :
    readAs (datePieces ++ ps) f (d.text.toList ++ rest) =
      readAs ps { f with year := d.year, month := d.month, day := d.day } rest := by
  obtain ⟨⟨-, hyear⟩, ⟨hmonth, hmonth'⟩, hday, hday'⟩ := Date.bounds_of_ofParts? h
  have htext : d.text.toList ++ rest = (zeroPadded 4 d.year).toList ++
      '-' :: ((zeroPadded 2 d.month).toList ++ '-' :: ((zeroPadded 2 d.day).toList ++ rest)) := by
    simp [Date.text]
  rw [htext]
  simp only [datePieces, cons_append, nil_append, readAs, readPiece, readField_year hyear,
    readField_month _ hmonth hmonth', readField_day _ hday hday', Option.map_some, Option.bind_some,
    if_true]

lemma readAs_time (h : t.IsProper) (ps : List Piece) (f : Fields) (rest : List Char) :
    readAs (timePieces ++ ps) f ((clockText t.hour t.minute t.second t.micro).toList ++ rest) =
      readAs ps { f with hour := t.hour, minute := t.minute, second := t.second }
        ((if t.micro = 0 then [] else '.' :: (zeroPadded 6 t.micro).toList) ++ rest) := by
  have htext : (clockText t.hour t.minute t.second t.micro).toList ++ rest =
      (zeroPadded 2 t.hour).toList ++ ':' :: ((zeroPadded 2 t.minute).toList ++
        ':' :: ((zeroPadded 2 t.second).toList ++
          ((if t.micro = 0 then [] else '.' :: (zeroPadded 6 t.micro).toList) ++ rest))) := by
    by_cases hmicro : t.micro = 0 <;> simp [clockText, hmicro]
  rw [htext]
  simp only [timePieces, cons_append, nil_append, readAs, readPiece,
    readField_hour _ h.hour, readField_minute _ h.minute, readField_second _ h.second,
    Option.map_some, Option.bind_some, if_true]

lemma readAs_space {ps : List Piece} {f : Fields} {c : Char} (hc : Text.isBlank c = false) :
    readAs (.space :: ps) f (' ' :: c :: cs) = readAs ps f (c :: cs) := by
  have hblank : Text.isBlank ' ' := by decide
  rw [readAs, readPiece, if_pos hblank, dropWhile_cons_of_neg (by simp [hc])]
  rfl

lemma exists_clockText {hour : Nat} (hhour : hour < 24) (minute second micro : Nat) :
    ∃ c cs, (clockText hour minute second micro).toList = c :: cs ∧ Text.isBlank c = false := by
  have hblank : ∀ d < 10, Text.isBlank d.digitChar = false := by decide
  have hdigits := toList_zeroPadded_two (show hour < 100 by omega)
  have htext : ∃ cs, (clockText hour minute second micro).toList = (zeroPadded 2 hour).toList ++ cs := by
    simp only [clockText, String.toList_append, append_assoc]
    exact ⟨_, rfl⟩
  obtain ⟨cs, hcs⟩ := htext
  rw [hdigits] at hcs
  exact ⟨(hour / 10).digitChar, (hour % 10).digitChar :: cs, hcs, hblank _ (by omega)⟩

lemma readAs_text (h : t.IsProper) (ho : t.offset = some o) :
    readAs (datePieces ++ .space :: (timePieces ++ [.offset])) {} (t.date.text.toList ++ ' ' ::
      ((clockText t.hour t.minute t.second t.micro).toList ++ (offsetText o).toList)) =
      if t.micro = 0 then
        some { year := t.date.year, month := t.date.month, day := t.date.day, hour := t.hour
               minute := t.minute, second := t.second, offset := some o }
      else none := by
  obtain ⟨c, cs, hclock, hc⟩ := exists_clockText h.hour t.minute t.second t.micro
  rw [readAs_date h.date, hclock, cons_append, readAs_space hc, ← cons_append, ← hclock,
    readAs_time h]
  split
  · rw [nil_append, readAs, readPiece, readOffset_offsetText (h.offset o ho)]
    rfl
  · rfl

/-- A moment with an offset is read back from its text, unless it has a fraction of a second: then
its text is no moment at all. -/
lemma parseMoment?_text (h : t.IsProper) (ho : t.offset = some o) :
    parseMoment? (t.text " ") = if t.micro = 0 then some t else none := by
  have htext : (t.text " ").toList = t.date.text.toList ++ ' ' ::
      ((clockText t.hour t.minute t.second t.micro).toList ++ (offsetText o).toList) := by
    simp [text, ho]
  have hletter (ps : List Piece) (cs : List Char) :
      readAs (datePieces ++ .mark 'T' :: ps) {} (t.date.text.toList ++ ' ' :: cs) = none := by
    rw [readAs_date h.date, readAs_mark, if_neg (by decide)]
  have hdate (cs : List Char) : readAs datePieces {} (t.date.text.toList ++ ' ' :: cs) = none := by
    rw [← append_nil datePieces, readAs_date h.date]
    rfl
  have hformats : formats = [datePieces ++ .mark 'T' :: (timePieces ++ [.mark 'Z']),
      datePieces ++ .space :: (timePieces ++ [.offset]),
      datePieces ++ .mark 'T' :: (timePieces ++ [.offset]), datePieces] := rfl
  have hmoment : ofParts? (Date.ofParts? t.date.year t.date.month t.date.day) t.hour t.minute
      t.second 0 (some o) = some { t with micro := 0 } := by
    rw [h.date, ← ho]
    simp [ofParts?, h.hour, h.minute, h.second]
  rw [parseMoment?, htext, hformats]
  simp only [findSome?_cons, findSome?_nil, hletter, hdate, readAs_text h ho, Option.bind_none]
  by_cases hmicro : t.micro = 0
  · rw [if_pos hmicro, if_pos hmicro, Option.bind_some, Fields.moment?]
    dsimp only [Option.getD_some]
    rw [hmoment, ← hmicro]
  · rw [if_neg hmicro, if_neg hmicro]
    rfl

end Freshness

end AssetCatalog
