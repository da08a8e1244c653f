import AssetCatalog.Proofs.Fault
import AssetCatalog.Text.Class
import AssetCatalog.Yaml.Token

/-!
# Places in YAML texts

How the lexer goes along a line, and how far a plain scalar reaches.
-/

namespace AssetCatalog.Yaml

open List Cursor

variable {w tail : List Char}

def isInline (c : Char) : Bool := !isBreakOrEnd c && c.toNat ≠ 0xfeff

/-! ## Places -/

namespace Cursor

variable {i l column : Nat} {cs : List Char}

lemma next_inline {c : Char} (hc : isInline c) :
    (⟨c :: cs, i, l, column⟩ : Cursor).next = ⟨cs, i + 1, l, column + 1⟩ := by
  simp only [isInline, isBreakOrEnd, isBreak, Bool.and_eq_true, Bool.not_eq_true',
    Bool.or_eq_false_iff, decide_eq_false_iff_not, decide_eq_true_eq, ne_eq] at hc
  simp [next, hc]

lemma forward_inline (hw : ∀ c ∈ w, isInline c) :
    (⟨w ++ cs, i, l, column⟩ : Cursor).forward w.length =
      ⟨cs, i + w.length, l, column + w.length⟩ := by
  induction w generalizing i column with
  | nil => rfl
  | cons c w ih =>
    obtain ⟨hc, hw⟩ := forall_mem_cons.mp hw
    rw [cons_append, length_cons, forward, next_inline hc, ih hw]
    congr 1 <;> omega

lemma span_inline {p : Char → Bool} (hw : ∀ c ∈ w, p c)
    (hinline : ∀ c ∈ w, isInline c) (hcs : p (cs.headD endMark) = false) :
    (⟨w ++ cs, i, l, column⟩ : Cursor).span p = (w, ⟨cs, i + w.length, l, column + w.length⟩) := by
  have hstop : cs.takeWhile p = [] := by
    cases cs with
    | nil => rfl
    | cons c cs => exact takeWhile_cons_of_neg (by simpa using hcs)
  have hrun : (w ++ cs).takeWhile p = w := by
    rw [takeWhile_append_of_pos hw, hstop, append_nil]
  rw [span]
  dsimp only
  rw [hrun, forward_inline hinline]

lemma skip_inline {p : Char → Bool} (hw : ∀ c ∈ w, p c)
    (hinline : ∀ c ∈ w, isInline c) (hcs : p (cs.headD endMark) = false) :
    (⟨w ++ cs, i, l, column⟩ : Cursor).skip p = ⟨cs, i + w.length, l, column + w.length⟩ := by
  rw [skip, span_inline hw hinline hcs]

lemma skip_blanks (n : Nat) (hcs : cs.headD endMark ≠ ' ') :
    (⟨List.replicate n ' ' ++ cs, i, l, column⟩ : Cursor).skip (· = ' ') =
      ⟨cs, i + n, l, column + n⟩ := by
  have hblank (c : Char) (hc : c ∈ List.replicate n ' ') : c = ' ' := eq_of_mem_replicate hc
  rw [skip_inline (fun c hc => by simpa using hblank c hc)
    (fun c hc => by rw [hblank c hc]; decide) (by simpa using hcs), length_replicate]

lemma lineBreak_newline :
    (⟨'\n' :: cs, i, l, column⟩ : Cursor).lineBreak = (['\n'], ⟨cs, i + 1, l + 1, 0⟩) := rfl

end Cursor

/-! ## Lines without tokens -/

def textOf (lines : List (List Char)) : List Char := lines.flatMap (· ++ ['\n'])

@[simp] lemma textOf_nil : textOf [] = [] := rfl

@[simp] lemma textOf_cons (line : List Char) (lines : List (List Char)) :
    textOf (line :: lines) = line ++ '\n' :: textOf lines := by
  simp [textOf]

@[simp] lemma textOf_append (lines lines' : List (List Char)) :
    textOf (lines ++ lines') = textOf lines ++ textOf lines' := by
  simp [textOf]

lemma length_le_length_textOf (lines : List (List Char)) : lines.length ≤ (textOf lines).length := by
  induction lines with
  | nil => exact Nat.le_refl 0
  | cons line lines ih =>
    simp only [textOf_cons, length_cons, length_append]
    omega

/-- A line without tokens: blanks, and a comment if there is one. -/
def isIdle (line : List Char) : Bool :=
  match line.dropWhile (· = ' ') with
  | [] => true
  | c :: cs => c = '#' && cs.all isInline

lemma exists_blanks (line : List Char) : ∃ n rest, line = List.replicate n ' ' ++ rest ∧
    (line.takeWhile (· = ' ')).length = n ∧ line.dropWhile (· = ' ') = rest ∧
    rest.headD endMark ≠ ' ' := by
  refine ⟨_, _, ?_, rfl, rfl, ?_⟩
  · have hblanks : line.takeWhile (· = ' ') =
        List.replicate (line.takeWhile (· = ' ')).length ' ' := by
      apply eq_replicate_of_mem
      intro c hc
      simpa using mem_takeWhile_imp hc
    rw [← hblanks, takeWhile_append_dropWhile]
  · cases hrest : line.dropWhile (· = ' ') with
    | nil => decide
    | cons c rest =>
      have hhead := head_dropWhile_not (· = ' ') (l := line) (by simp [hrest])
      simpa [hrest] using hhead

lemma exists_of_isIdle {line : List Char} (h : isIdle line) :
    ∃ n rest, line = List.replicate n ' ' ++ rest ∧
      (rest = [] ∨ ∃ note, rest = '#' :: note ∧ ∀ c ∈ note, isInline c) := by
  obtain ⟨n, rest, hline, -, hrest, -⟩ := exists_blanks line
  refine ⟨n, rest, hline, ?_⟩
  rw [isIdle, hrest] at h
  cases rest with
  | nil => exact .inl rfl
  | cons c cs =>
    rw [Bool.and_eq_true, decide_eq_true_eq, all_eq_true] at h
    exact .inr ⟨cs, by rw [h.1], h.2⟩

/-- A place where something other than blanks, comments and line ends follows, or nothing. -/
def opens (text : List Char) : Bool :=
  !(text.headD endMark = ' ' || text.headD endMark = '#' || isBreak (text.headD endMark))

/-! ## The lexer outside flow collections -/

namespace Token.Lexer

/-- The columns of the blocks that are open: the innermost and those around it. -/
structure Blocks where
  indent : Int := -1
  outer : List Int := []
deriving DecidableEq

def block (ts : List Token) (b : Blocks) (allowed : Bool) (keys : List PossibleKey) (place : Cursor) :
    Lexer where
  place := place
  tokens := ts.toArray
  indent := b.indent
  indents := b.outer
  keyAllowed := allowed
  keys := keys

variable {ts : List Token} {b : Blocks} {allowed : Bool} {keys : List PossibleKey} {k : Cursor}
  {i l column fuel : Nat} {cs text : List Char} {s s' : Lexer}

lemma skipToToken_block : skipToToken (fuel + 1) (block ts b allowed keys k) =
    let k := k.skip (· = ' ')
    let k := if k.peek = '#' then k.skip (fun c => !isBreakOrEnd c) else k
    if isBreak k.peek then skipToToken fuel (block ts b true keys k.lineBreak.2)
    else block ts b allowed keys k := by
  cases allowed <;> rfl

lemma skipToToken_blanks (n : Nat) (hcs : cs.headD endMark ≠ ' ') :
    skipToToken (fuel + 1) (block ts b allowed keys ⟨List.replicate n ' ' ++ cs, i, l, column⟩) =
      skipToToken (fuel + 1) (block ts b allowed keys ⟨cs, i + n, l, column + n⟩) := by
  have hself : (⟨cs, i + n, l, column + n⟩ : Cursor).skip (· = ' ') = ⟨cs, i + n, l, column + n⟩ :=
    skip_blanks 0 hcs
  simp only [skipToToken_block, skip_blanks n hcs, hself]

lemma skipToToken_of_opens (hcs : opens cs) :
    skipToToken (fuel + 1) (block ts b allowed keys ⟨cs, i, l, column⟩) =
      block ts b allowed keys ⟨cs, i, l, column⟩ := by
  simp only [opens, Bool.not_eq_true', Bool.or_eq_false_iff, decide_eq_false_iff_not] at hcs
  have hself : (⟨cs, i, l, column⟩ : Cursor).skip (· = ' ') = ⟨cs, i, l, column⟩ :=
    skip_blanks 0 hcs.1.1
  simp only [skipToToken_block, hself, peek, if_neg hcs.1.2, hcs.2, Bool.false_eq_true, if_false]

lemma skipToToken_idle {line : List Char} (h : isIdle line) :
    skipToToken (fuel + 1) (block ts b allowed keys ⟨line ++ '\n' :: cs, i, l, column⟩) =
      skipToToken fuel (block ts b true keys ⟨cs, i + line.length + 1, l + 1, 0⟩) := by
  obtain ⟨n, rest, rfl, rfl | ⟨note, rfl, hnote⟩⟩ := exists_of_isIdle h
  · have hblanks : (⟨List.replicate n ' ' ++ [] ++ '\n' :: cs, i, l, column⟩ : Cursor).skip (· = ' ') =
        ⟨'\n' :: cs, i + n, l, column + n⟩ := by
      rw [append_nil]
      exact skip_blanks n (by simp)
    simp only [skipToToken_block, hblanks, peek, headD_cons]
    simp [lineBreak_newline, isBreak]
  · have hblanks : (⟨List.replicate n ' ' ++ '#' :: note ++ '\n' :: cs, i, l, column⟩ : Cursor).skip
        (· = ' ') = ⟨'#' :: note ++ '\n' :: cs, i + n, l, column + n⟩ := by
      rw [append_assoc]
      exact skip_blanks n (by simp)
    have hcomment : (⟨'#' :: note ++ '\n' :: cs, i + n, l, column + n⟩ : Cursor).skip
        (fun c => !isBreakOrEnd c) = ⟨'\n' :: cs, i + n + (note.length + 1), l,
          column + n + (note.length + 1)⟩ := by
      have hinline : ∀ c ∈ '#' :: note, isInline c :=
        forall_mem_cons.mpr ⟨by decide, hnote⟩
      have hpart (c : Char) (hc : c ∈ '#' :: note) : (!isBreakOrEnd c) :=
        (Bool.and_eq_true _ _ ▸ hinline c hc).1
      exact skip_inline hpart hinline (by simp [isBreakOrEnd, isBreak])
    rw [cons_append] at hcomment
    simp only [skipToToken_block, hblanks, peek, cons_append, headD_cons, if_true,
      hcomment]
    simp [lineBreak_newline, isBreak, Nat.add_assoc]

lemma skipToToken_lines {idle : List (List Char)} {n : Nat}
    (hidle : ∀ line ∈ idle, isIdle line) (htext : opens text) (hfuel : idle.length < fuel) :
    ∃ j, skipToToken fuel
        (block ts b true keys ⟨textOf idle ++ (List.replicate n ' ' ++ text), i, l, 0⟩) =
      block ts b true keys ⟨text, j, l + idle.length, n⟩ := by
  induction idle generalizing fuel i l with
  | nil =>
    obtain ⟨fuel, rfl⟩ := Nat.exists_eq_succ_of_ne_zero (Nat.ne_of_gt hfuel)
    have hblank : text.headD endMark ≠ ' ' := by
      simp only [opens, Bool.not_eq_true', Bool.or_eq_false_iff, decide_eq_false_iff_not] at htext
      exact htext.1.1
    refine ⟨i + n, ?_⟩
    rw [textOf_nil, nil_append, skipToToken_blanks n hblank, skipToToken_of_opens htext,
      Nat.zero_add, length_nil, Nat.add_zero]
  | cons line idle ih =>
    obtain ⟨hline, hidle⟩ := forall_mem_cons.mp hidle
    obtain ⟨fuel, rfl⟩ := Nat.exists_eq_succ_of_ne_zero (Nat.ne_of_gt (Nat.zero_lt_of_lt hfuel))
    obtain ⟨j, hj⟩ := ih (i := i + line.length + 1) (l := l + 1) hidle (Nat.lt_of_succ_lt_succ hfuel)
    refine ⟨j, ?_⟩
    rw [textOf_cons, append_assoc, cons_append, skipToToken_idle hline, hj, length_cons,
      Nat.add_assoc, Nat.add_comm 1]

end Token.Lexer

/-! ## Plain scalars -/

/-- A text that a plain scalar may be: it starts as a word does, has no blanks, and does not end in
a colon. -/
def isPlain (w : List Char) : Bool :=
  Text.isWordPart (w.headD endMark) && w.all (fun c => isInline c && !isSpaceOrEnd c) &&
    w.getLast? ≠ some ':'

/-- Whether a plain scalar ends before a text. -/
def stopsPlain (tail : List Char) : Bool :=
  isSpaceOrEnd (tail.headD endMark) ||
    (tail.headD endMark = ':' && isSpaceOrEnd (tail.tail.headD endMark))

lemma plainLength_of_stopsPlain (h : stopsPlain tail) : plainLength false tail = 0 := by
  cases tail with
  | nil => rfl
  | cons c cs =>
    rw [stopsPlain, Bool.or_eq_true, Bool.and_eq_true] at h
    rcases h with h | ⟨hcolon, h⟩
    · simp only [headD_cons] at h
      simp [plainLength, h]
    · obtain rfl : c = ':' := of_decide_eq_true hcolon
      simp only [tail_cons] at h
      simp [plainLength, -headD_eq_head?_getD, h]

lemma plainLength_append (hw : ∀ c ∈ w, isSpaceOrEnd c = false)
    (hlast : w.getLast? ≠ some ':') (htail : stopsPlain tail) :
    plainLength false (w ++ tail) = w.length := by
  induction w with
  | nil => exact plainLength_of_stopsPlain htail
  | cons c w ih =>
    obtain ⟨hc, hw⟩ := forall_mem_cons.mp hw
    have hcolon (h : c = ':') : isSpaceOrEnd ((w ++ tail).headD endMark) = false := by
      cases w with
      | nil =>
        rw [h] at hlast
        simp at hlast
      | cons d w => exact hw d mem_cons_self
    have hlast' : w.getLast? ≠ some ':' := by
      cases w with
      | nil => simp
      | cons d w => simpa [getLast?_cons_cons] using hlast
    have hgoes : (isSpaceOrEnd c || c = ':' && isSpaceOrEnd ((w ++ tail).headD endMark)) = false := by
      by_cases h : c = ':'
      · rw [hc, hcolon h, Bool.and_false, Bool.or_false]
      · rw [hc, decide_eq_false h, Bool.false_and, Bool.or_false]
    simp only [cons_append, plainLength, Bool.false_and, Bool.or_false, hgoes, Bool.false_eq_true,
      if_false, ih hw hlast', length_cons]

section PlainEnd

variable {i l column : Nat} {cs : List Char}

lemma plainSpaces_comment (n : Nat) :
    plainSpaces ⟨List.replicate n ' ' ++ '#' :: cs, i, l, column⟩ =
      (List.replicate n ' ', ⟨'#' :: cs, i + n, l, column + n⟩, false) := by
  have hblanks : (⟨List.replicate n ' ' ++ '#' :: cs, i, l, column⟩ : Cursor).span (· = ' ') =
      (List.replicate n ' ', ⟨'#' :: cs, i + n, l, column + n⟩) := by
    have hblank (c : Char) (hc : c ∈ List.replicate n ' ') : c = ' ' := eq_of_mem_replicate hc
    rw [span_inline (fun c hc => by simpa using hblank c hc)
      (fun c hc => by rw [hblank c hc]; decide) (by simp), length_replicate]
  simp [plainSpaces, hblanks, peek, isBreak]

lemma plainSpaces_colon :
    plainSpaces ⟨':' :: cs, i, l, column⟩ = ([], ⟨':' :: cs, i, l, column⟩, false) := by
  have hblanks : (⟨':' :: cs, i, l, column⟩ : Cursor).span (· = ' ') =
      ([], ⟨':' :: cs, i, l, column⟩) :=
    span_inline (w := []) (by simp) (by simp) (by simp)
  simp [plainSpaces, hblanks, peek, isBreak]

lemma plainBreaks_blanks {fuel : Nat} (n i column : Nat) (acc : List Char) (hblank : cs.headD endMark ≠ ' ')
    (hbreak : isBreak (cs.headD endMark) = false) (hfuel : n < fuel) :
    plainBreaks fuel ⟨List.replicate n ' ' ++ cs, i, l, column⟩ acc =
      (some acc, ⟨cs, i + n, l, column + n⟩) := by
  induction n generalizing fuel i column with
  | zero =>
    obtain ⟨fuel, rfl⟩ := Nat.exists_eq_succ_of_ne_zero (Nat.ne_of_gt hfuel)
    simp [plainBreaks, peek, -headD_eq_head?_getD, hblank, hbreak]
  | succ n ih =>
    obtain ⟨fuel, rfl⟩ := Nat.exists_eq_succ_of_ne_zero (Nat.ne_of_gt (Nat.zero_lt_of_lt hfuel))
    have hnext := ih (i + 1) (column + 1) (Nat.lt_of_succ_lt_succ hfuel)
    rw [plainBreaks, replicate_succ, cons_append, next_inline (by decide), hnext]
    simp [peek, Nat.add_assoc, Nat.add_comm 1]

lemma plainSpaces_newline (n : Nat) (hblank : cs.headD endMark ≠ ' ')
    (hbreak : isBreak (cs.headD endMark) = false)
    (hseparator : (⟨List.replicate n ' ' ++ cs, i + 1, l + 1, 0⟩ : Cursor).atSeparator = false) :
    plainSpaces ⟨'\n' :: (List.replicate n ' ' ++ cs), i, l, column⟩ =
      ([' '], ⟨cs, i + 1 + n, l + 1, n⟩, true) := by
  have hblanks : (⟨'\n' :: (List.replicate n ' ' ++ cs), i, l, column⟩ : Cursor).span (· = ' ') =
      ([], ⟨'\n' :: (List.replicate n ' ' ++ cs), i, l, column⟩) :=
    span_inline (w := []) (by simp) (by simp) (by simp)
  have hlines : plainBreaks ((List.replicate n ' ' ++ cs).length + 1)
      ⟨List.replicate n ' ' ++ cs, i + 1, l + 1, 0⟩ [] = (some [], ⟨cs, i + 1 + n, l + 1, 0 + n⟩) :=
    plainBreaks_blanks n _ _ [] hblank hbreak (by simp)
  rw [plainSpaces, hblanks]
  dsimp only
  rw [lineBreak_newline]
  dsimp only
  rw [hlines, hseparator]
  simp [peek, isBreak]

end PlainEnd

lemma plainScalar_append {spaces : List Char} {k' : Cursor} {left : Bool} {indent : Int}
    {i l column fuel : Nat} (hw : isPlain w) (htail : stopsPlain tail)
    (hspaces : plainSpaces ⟨tail, i + w.length, l, column + w.length⟩ = (spaces, k', left))
    (hend : spaces = [] ∨ k'.peek = '#' ∨ (k'.column : Int) < indent) :
    plainScalar false indent (fuel + 1) ⟨w ++ tail, i, l, column⟩ [] [] false = ⟨w, k', left⟩ := by
  simp only [isPlain, Bool.and_eq_true, decide_eq_true_eq, all_eq_true, Bool.not_eq_true'] at hw
  obtain ⟨⟨hstart, hparts⟩, hlast⟩ := hw
  have hlength := plainLength_append (fun c hc => (hparts c hc).2) hlast htail
  have hhash : (⟨w ++ tail, i, l, column⟩ : Cursor).peek ≠ '#' := by
    intro h
    cases w with
    | nil => exact absurd hstart (by decide)
    | cons c w =>
      obtain rfl : c = '#' := h
      rw [headD_cons] at hstart
      exact absurd hstart (by decide)
  have hne : w.length ≠ 0 := by
    intro h
    rw [length_eq_zero_iff.mp h] at hstart
    exact absurd hstart (by decide)
  have hstop : (spaces.isEmpty || k'.peek = '#' || (!false && decide ((k'.column : Int) < indent))) =
      true := by
    simpa [or_assoc] using hend
  rw [plainScalar, if_neg hhash]
  dsimp only
  rw [hlength, if_neg hne, forward_inline fun c hc => (hparts c hc).1, hspaces]
  dsimp only
  rw [if_pos hstop, append_nil, nil_append, take_left]

end AssetCatalog.Yaml
