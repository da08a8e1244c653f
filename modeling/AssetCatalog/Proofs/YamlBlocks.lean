import AssetCatalog.Proofs.YamlLexer

/-!
# The tokens of block texts

Blocks are opened and closed by the columns of keys and entries.
-/

namespace AssetCatalog.Yaml

open List Cursor Token

variable {n : Nat} {line tail : List Char} {t : Token}

/-! ## Blocks -/

namespace Token.Lexer

/-- The blocks that stay open before a column, and how many are closed. -/
def Blocks.before (b : Blocks) (column : Int) : Blocks × Nat :=
  let (outer, indent, n) := unwind.close column b.outer b.indent 0
  (⟨indent, outer⟩, n)

/-- The blocks with one more at a column, if that is deeper. -/
def Blocks.sink (b : Blocks) (column : Int) : Blocks :=
  if b.indent < column then ⟨column, b.indent :: b.outer⟩ else b

/-- What the lexer gives when it comes to a column: the ends of blocks, and the start of one if the
column is deeper. -/
def Blocks.marks (b : Blocks) (column : Int) (start : Token) : List Token :=
  List.replicate (b.before column).2 blockEnd ++
    if (b.before column).1.indent < column then [start] else []

variable {ts : List Token} {b : Blocks} {allowed : Bool} {keys : List PossibleKey} {k : Cursor}
  {lines : List (List Char)} {w : String}
  {i l column fuel : Nat} {cs text : List Char} {s s' : Lexer}

lemma block_place : (block ts b allowed keys k).place = k := rfl

lemma push_block (t : Token) :
    (block ts b allowed keys k).push t = block (ts ++ [t]) b allowed keys k := by
  simp [block, push]

lemma unwind_block (column : Int) : (block ts b allowed keys k).unwind column =
    block (ts ++ List.replicate (b.before column).2 blockEnd) (b.before column).1 allowed keys k := by
  simp [unwind, block, Blocks.before]

lemma before_of_le {column : Int} (h : b.indent ≤ column) : b.before column = (b, 0) := by
  obtain ⟨indent, outer⟩ := b
  cases outer with
  | nil => rfl
  | cons d ds => simp [Blocks.before, unwind.close, not_lt.mpr h]

lemma dropKey_block : (block ts b allowed [] k).dropKey = .ok (block ts b allowed [] k) := rfl

/-- Whether a possible key can no longer be one. -/
def isStale (place : Cursor) (key : PossibleKey) : Bool :=
  key.line ≠ place.line || 1024 < place.index - key.index

lemma dropStale_of_stale (hkeys : ∀ key ∈ keys, key.required = false ∧ isStale k key) :
    (block ts b allowed keys k).dropStale = .ok (block ts b allowed [] k) := by
  have hany : keys.any (fun key => isStale k key && key.required) = false := by
    rw [any_eq_false]
    intro key hkey
    simp [(hkeys key hkey).1]
  have hfilter : keys.filter (fun key => !isStale k key) = [] := by
    rw [filter_eq_nil_iff]
    intro key hkey
    simp [(hkeys key hkey).2]
  have hdrop : (block ts b allowed keys k).dropStale =
      if keys.any (fun key => isStale k key && key.required) then .error .yaml
      else .ok (block ts b allowed (keys.filter fun key => !isStale k key) k) := rfl
  rw [hdrop, hany, hfilter]
  rfl

lemma dropStale_of_fresh {key : PossibleKey} (hkey : isStale k key = false) :
    (block ts b allowed [key] k).dropStale = .ok (block ts b allowed [key] k) := by
  have hdrop : (block ts b allowed [key] k).dropStale =
      if [key].any (fun key => isStale k key && key.required) then .error .yaml
      else .ok (block ts b allowed ([key].filter fun key => !isStale k key) k) := rfl
  rw [hdrop]
  simp [hkey]

/-! ## Runs -/

/-- From `s`, the lexer comes to `s'` in `n` tokens. -/
def Leads (n : Nat) (s s' : Lexer) : Prop := ∀ fuel, run (fuel + n) s = run fuel s'

lemma Leads.trans {m : Nat} {s'' : Lexer} (h : Leads m s s') (h' : Leads n s' s'') :
    Leads (n + m) s s'' := by
  intro fuel
  rw [← Nat.add_assoc, h, h']

lemma leads_of_fetch (h : s.fetch = .ok (false, s')) : Leads 1 s s' := by
  intro fuel
  rw [run, h]
  rfl

/-- The lexer is about to read a token at a column, with the blocks `b` open, and `text` is what
follows. -/
def At (ts : List Token) (b : Blocks) (allowed : Bool) (column : Nat) (text : List Char)
    (s : Lexer) : Prop :=
  ∃ i l, (skipToToken (s.place.rest.length + 1) s).dropStale =
    .ok (block ts b allowed [] ⟨text, i, l, column⟩)

lemma fetch_of_skip
    (h : (skipToToken (s.place.rest.length + 1) s).dropStale = .ok (block ts b allowed keys k)) :
    s.fetch = (block (ts ++ List.replicate (b.before k.column).2 blockEnd) (b.before k.column).1 allowed
      keys k).readToken := by
  rw [Lexer.fetch, h, except_ok_bind, block_place, unwind_block]

lemma At.fetch (h : At ts b allowed column text s) : ∃ i l, s.fetch =
    (block (ts ++ List.replicate (b.before column).2 blockEnd) (b.before column).1 allowed []
      ⟨text, i, l, column⟩).readToken := by
  obtain ⟨i, l, h⟩ := h
  exact ⟨i, l, fetch_of_skip h⟩

lemma at_of_blanks (n : Nat) (htext : opens text) : At ts b allowed (column + n) text
      (block ts b allowed [] ⟨List.replicate n ' ' ++ text, i, l, column⟩) := by
  have hblank : text.headD endMark ≠ ' ' := by
    simp only [opens, Bool.not_eq_true', Bool.or_eq_false_iff, decide_eq_false_iff_not] at htext
    exact htext.1.1
  refine ⟨i + n, l, ?_⟩
  rw [skipToToken_blanks n hblank, skipToToken_of_opens htext]
  exact dropStale_of_stale (by simp)

/-- The lexer stands before lines: whatever tokens they bring are read next, with the blocks `b`
open. -/
def Before (ts : List Token) (b : Blocks) (lines : List (List Char)) (s : Lexer) : Prop :=
  ∀ idle rest n text, lines = idle ++ rest → textOf rest = List.replicate n ' ' ++ text →
    (∀ line ∈ idle, isIdle line = true) → opens text = true → At ts b true n text s

/-- Keys of earlier lines are no longer possible at the next token. -/
lemma at_of_skipToToken
    (h : skipToToken (s.place.rest.length + 1) s = block ts b allowed keys ⟨text, i, l, n⟩)
    (hkeys : ∀ key ∈ keys, key.required = false ∧ key.line < l) : At ts b allowed n text s := by
  refine ⟨i, l, (congrArg dropStale h).trans (dropStale_of_stale fun key hkey => ⟨(hkeys key hkey).1, ?_⟩)⟩
  simp [isStale, (hkeys key hkey).2.ne]

lemma before_of_idle {first : List Char} (hfirst : isIdle first)
    (hkeys : ∀ key ∈ keys, key.required = false ∧ key.line ≤ l) :
    Before ts b lines (block ts b allowed keys ⟨first ++ '\n' :: textOf lines, i, l, column⟩) := by
  rintro idle rest n text rfl hrest hidle htext
  have hlength := length_le_length_textOf idle
  have hfuel : idle.length < (first ++ '\n' :: textOf (idle ++ rest)).length := by
    simp only [textOf_append, length_append, length_cons]
    omega
  obtain ⟨j, hj⟩ : ∃ j, skipToToken (first ++ '\n' :: textOf (idle ++ rest)).length
      (block ts b true keys ⟨textOf idle ++ (List.replicate n ' ' ++ text), i + first.length + 1,
        l + 1, 0⟩) = block ts b true keys ⟨text, j, l + 1 + idle.length, n⟩ :=
    skipToToken_lines hidle htext hfuel
  rw [← hrest, ← textOf_append] at hj
  refine at_of_skipToToken ((skipToToken_idle hfirst).trans hj) fun key hkey => ⟨(hkeys key hkey).1, ?_⟩
  have hline := (hkeys key hkey).2
  omega

lemma before_of_lineEnd :
    Before ts b lines (block ts b allowed [] ⟨'\n' :: textOf lines, i, l, column⟩) := by
  rw [← nil_append ('\n' :: textOf lines)]
  exact before_of_idle rfl (by simp)

lemma before_of_blanks (hline : (line ++ ['\n']).headD endMark ≠ ' ')
    (hkeys : ∀ key ∈ keys, key.required = false ∧ key.line < l) :
    Before ts b ((List.replicate n ' ' ++ line) :: lines)
      (block ts b true keys ⟨line ++ '\n' :: textOf lines, i + n, l, n⟩) := by
  intro idle rest m text hlines hrest hidle htext
  have hlength := length_le_length_textOf lines
  have hcount : idle.length ≤ lines.length + 1 := by
    have hsum := congrArg List.length hlines
    simp only [length_cons, length_append] at hsum
    omega
  have hfuel : idle.length < (line ++ '\n' :: textOf lines).length + 1 := by
    simp only [length_append, length_cons]
    omega
  obtain ⟨j, hj⟩ : ∃ j, skipToToken ((line ++ '\n' :: textOf lines).length + 1)
      (block ts b true keys ⟨textOf idle ++ (List.replicate m ' ' ++ text), i, l, 0⟩) =
        block ts b true keys ⟨text, j, l + idle.length, m⟩ :=
    skipToToken_lines hidle htext hfuel
  have hblank : (line ++ '\n' :: textOf lines).headD endMark ≠ ' ' := by
    cases line with
    | nil => simp
    | cons c line => exact hline
  have htexts : List.replicate n ' ' ++ (line ++ '\n' :: textOf lines) =
      textOf idle ++ (List.replicate m ' ' ++ text) := by
    rw [← hrest, ← textOf_append, ← hlines, textOf_cons, append_assoc]
  rw [← htexts, skipToToken_blanks n hblank, Nat.zero_add] at hj
  exact at_of_skipToToken hj fun key hkey => ⟨(hkeys key hkey).1, (hkeys key hkey).2.trans_le (by omega)⟩

/-! ## Steps -/

lemma readToken_word {w : List Char} (hw : isPlain w) (hk : k.rest = w ++ tail) :
    (block ts b allowed keys k).readToken = ((block ts b allowed keys k).plain).map (false, ·) := by
  simp only [isPlain, Bool.and_eq_true, all_eq_true, Bool.not_eq_true'] at hw
  obtain ⟨⟨hstart, hparts⟩, -⟩ := hw
  have hne (d : Char) (hd : Text.isWordPart d = false) : k.peek ≠ d := by
    rintro rfl
    cases w with
    | nil => exact absurd hstart (by decide)
    | cons c w =>
      rw [peek, hk] at hd
      exact Bool.noConfusion (hd.symm.trans hstart)
  have hrest : k.rest.isEmpty = false := by
    rw [hk]
    cases w with
    | nil => exact absurd hstart (by decide)
    | cons c w => rfl
  have hspace : isSpaceOrEnd k.peek = false := by
    cases w with
    | nil => exact absurd hstart (by decide)
    | cons c w =>
      rw [peek, hk]
      exact (hparts c mem_cons_self).2
  simp [readToken, block, hrest, startsPlain, hspace, hne '%' (by decide), hne '-' (by decide),
    hne '.' (by decide), hne '[' (by decide), hne ']' (by decide), hne '\x7b' (by decide),
    hne '\x7d' (by decide), hne ',' (by decide), hne '?' (by decide), hne ':' (by decide),
    hne '*' (by decide), hne '&' (by decide), hne '!' (by decide), hne '|' (by decide),
    hne '>' (by decide), hne '\'' (by decide), hne '"' (by decide), hne '#' (by decide),
    hne '@' (by decide), hne (Char.ofNat 96) (by decide)]

def noted (ts : List Token) (b : Blocks) (allowed : Bool) (k : Cursor) : List PossibleKey :=
  if allowed then [⟨0, ts.length, b.indent = k.column, k.index, k.line, k.column⟩] else []

lemma noteKey_block : (block ts b allowed [] k).noteKey =
    .ok (block ts b allowed (noted ts b allowed k) k) := by
  cases allowed <;> rfl

lemma plain_eq (k : Cursor) : (block ts b allowed [] k).plain =
    let p := plainScalar false (b.indent + 1) (k.rest.length + 1) k [] [] false
    .ok (block (ts ++ [scalar (String.ofList p.text) true]) b p.onNewLine (noted ts b allowed k)
      p.after) := by
  rw [plain, noteKey_block]
  exact congrArg Except.ok (push_block _)

lemma plain_block {spaces : List Char} {k' : Cursor} {left : Bool} (hw : isPlain w.toList)
    (htail : stopsPlain tail)
    (hspaces : plainSpaces ⟨tail, i + w.toList.length, l, column + w.toList.length⟩ = (spaces, k', left))
    (hend : spaces = [] ∨ k'.peek = '#' ∨ (k'.column : Int) ≤ b.indent) :
    (block ts b allowed [] ⟨w.toList ++ tail, i, l, column⟩).plain =
      .ok (block (ts ++ [scalar w true]) b left
        (noted ts b allowed ⟨w.toList ++ tail, i, l, column⟩) k') := by
  have hend' : spaces = [] ∨ k'.peek = '#' ∨ (k'.column : Int) < b.indent + 1 := by
    simpa only [Int.lt_add_one_iff] using hend
  rw [plain_eq, plainScalar_append hw htail hspaces hend']
  simp only [String.ofList_toList]

lemma At.plain_leads {spaces : List Char} {k' : Nat → Nat → Cursor} {left : Bool}
    (h : At ts b allowed column (w.toList ++ tail) s) (hcolumn : b.indent ≤ column)
    (hw : isPlain w.toList) (htail : stopsPlain tail)
    (hspaces : ∀ i l, plainSpaces ⟨tail, i, l, column + w.toList.length⟩ = (spaces, k' i l, left))
    (hend : ∀ i l, spaces = [] ∨ (k' i l).peek = '#' ∨ ((k' i l).column : Int) ≤ b.indent) :
    ∃ i l, Leads 1 s (block (ts ++ [scalar w true]) b left
      (noted ts b allowed ⟨w.toList ++ tail, i, l, column⟩) (k' (i + w.toList.length) l)) := by
  obtain ⟨i, l, hfetch⟩ := h.fetch
  refine ⟨i, l, leads_of_fetch ?_⟩
  rw [hfetch, before_of_le hcolumn, replicate_zero, append_nil, readToken_word hw rfl,
    plain_block hw htail (hspaces _ l) (hend _ l)]
  rfl

lemma forall_noted {P : PossibleKey → Prop} (h : P ⟨0, ts.length, b.indent = k.column, k.index,
    k.line, k.column⟩) : ∀ key ∈ noted ts b allowed k, P key := by
  intro key hkey
  cases allowed with
  | false => cases hkey
  | true =>
    rw [mem_singleton.mp hkey]
    exact h

lemma At.scalar_comment {note : List Char}
    (h : At ts b allowed column (w.toList ++ (List.replicate (n + 1) ' ' ++ '#' :: note) ++
      '\n' :: textOf lines) s) (hcolumn : b.indent < column) (hw : isPlain w.toList)
    (hnote : note.all isInline) :
    ∃ s', Leads 1 s s' ∧ Before (ts ++ [scalar w true]) b lines s' := by
  rw [append_assoc, append_assoc, cons_append] at h
  obtain ⟨i, l, hleads⟩ := h.plain_leads hcolumn.le hw (by simp [stopsPlain, replicate_succ, isSpaceOrEnd])
    (fun i l => plainSpaces_comment (n + 1)) (fun i l => .inr (.inl rfl))
  refine ⟨_, hleads, ?_⟩
  rw [← cons_append]
  apply before_of_idle
  · simpa [isIdle] using hnote
  · apply forall_noted
    exact ⟨decide_eq_false hcolumn.ne, le_refl _⟩

/-- Whether a line cannot go on a plain scalar of a block at a column: it is a comment, or not deeper
than the block. -/
def endsScalar (indent : Int) (line : List Char) : Bool :=
  let n := (line.takeWhile (· = ' ')).length
  let c := (line.dropWhile (· = ' ')).headD endMark
  (c = '#' || ((n : Int) ≤ indent && !isBreakOrEnd c)) && !(n = 0 && (c = '-' || c = '.'))

lemma exists_of_endsScalar {indent : Int} (h : endsScalar indent line) :
    ∃ n c rest, line = List.replicate n ' ' ++ c :: rest ∧ c ≠ ' ' ∧ isBreak c = false ∧
      (c = '#' ∨ (n : Int) ≤ indent) ∧ (n = 0 → c ≠ '-' ∧ c ≠ '.') := by
  obtain ⟨n, rest, hline, hlength, hrest, hblank⟩ := exists_blanks line
  simp only [endsScalar, hlength, hrest, Bool.and_eq_true, Bool.or_eq_true, decide_eq_true_eq,
    Bool.not_eq_true', Bool.and_eq_false_iff, Bool.or_eq_false_iff, decide_eq_false_iff_not] at h
  cases rest with
  | nil =>
    obtain ⟨hhash | ⟨-, hbreak⟩, -⟩ := h
    · exact absurd hhash (by decide)
    · exact absurd hbreak (by decide)
  | cons c rest =>
    simp only [headD_cons] at h hblank
    refine ⟨n, c, rest, hline, hblank, ?_, h.1.imp_right And.left, fun hn => ?_⟩
    · rcases h.1 with rfl | ⟨-, hbreak⟩
      · decide
      · exact (Bool.or_eq_false_iff.mp hbreak).2
    · exact h.2.resolve_left (not_not_intro hn)

lemma At.scalar_line (h : At ts b allowed column (w.toList ++ '\n' :: textOf (line :: lines)) s)
    (hcolumn : b.indent < column) (hw : isPlain w.toList) (hline : endsScalar b.indent line) :
    ∃ s', Leads 1 s s' ∧ Before (ts ++ [scalar w true]) b (line :: lines) s' := by
  obtain ⟨n, c, rest, rfl, hblank, hbreak, hend, hmark⟩ := exists_of_endsScalar hline
  have hseparator (i l : Nat) : (⟨List.replicate n ' ' ++ (c :: rest ++ '\n' :: textOf lines), i, l, 0⟩ :
      Cursor).atSeparator = false := by
    cases n with
    | zero =>
      obtain ⟨hdash, hpoint⟩ := hmark rfl
      simp [atSeparator, hdash, hpoint]
    | succ n => simp [atSeparator, replicate_succ]
  rw [textOf_cons, append_assoc] at h
  obtain ⟨i, l, hleads⟩ := h.plain_leads hcolumn.le hw (by simp [stopsPlain, isSpaceOrEnd, isBreakOrEnd, isBreak])
    (fun i l => plainSpaces_newline n hblank hbreak (hseparator _ _))
    (fun i l => .inr (hend.imp_left fun hhash => by simpa [peek] using hhash))
  refine ⟨_, hleads, ?_⟩
  apply before_of_blanks
  · exact hblank
  · apply forall_noted
    exact ⟨decide_eq_false hcolumn.ne, Nat.lt_succ_self _⟩

/-! ### Keys and entries -/

lemma readToken_colon (hcs : isSpaceOrEnd (cs.headD endMark)) :
    (block ts b allowed keys ⟨':' :: cs, i, l, column⟩).readToken =
      ((block ts b allowed keys ⟨':' :: cs, i, l, column⟩).colon).map (false, ·) := by
  have hnext : isSpaceOrEnd ((⟨':' :: cs, i, l, column⟩ : Cursor).peekAt 1) := by
    cases cs <;> exact hcs
  simp [readToken, block, peek, hnext]

lemma colon_block {required : Bool} {j m : Nat} :
    (block (ts ++ [t]) b allowed [⟨0, ts.length, required, j, m, n⟩] ⟨':' :: cs, i, l, column⟩).colon =
      .ok (block (ts ++ (if b.indent < n then [blockMappingStart, key] else [key]) ++ [t, value])
        (b.sink n) false [] ⟨cs, i + 1, l, column + 1⟩) := by
  have hnext : (⟨':' :: cs, i, l, column⟩ : Cursor).next = ⟨cs, i + 1, l, column + 1⟩ :=
    next_inline (by decide)
  by_cases h : b.indent < n
  · simp [colon, block, deepen, Blocks.sink, h, push, hnext, pure, Except.pure]
  · simp [colon, block, deepen, Blocks.sink, h, push, hnext, pure, Except.pure]

lemma fetch_colon {required : Bool} {j : Nat} (hlength : i - j ≤ 1024)
    (hdeep : b.indent ≤ column) (hcs : isSpaceOrEnd (cs.headD endMark)) :
    (block (ts ++ [t]) b allowed [⟨0, ts.length, required, j, l, n⟩] ⟨':' :: cs, i, l, column⟩).fetch =
      .ok (false, block (ts ++ (if b.indent < n then [blockMappingStart, key] else [key]) ++
        [t, value]) (b.sink n) false [] ⟨cs, i + 1, l, column + 1⟩) := by
  have hfresh : isStale ⟨':' :: cs, i, l, column⟩ ⟨0, ts.length, required, j, l, n⟩ = false := by
    simpa [isStale] using hlength
  have hskip : (skipToToken ((':' :: cs).length + 1) (block (ts ++ [t]) b allowed
      [⟨0, ts.length, required, j, l, n⟩] ⟨':' :: cs, i, l, column⟩)).dropStale =
        .ok (block (ts ++ [t]) b allowed [⟨0, ts.length, required, j, l, n⟩]
          ⟨':' :: cs, i, l, column⟩) := by
    rw [skipToToken_of_opens rfl, dropStale_of_fresh hfresh]
  rw [fetch_of_skip hskip, before_of_le hdeep, replicate_zero, append_nil,
    readToken_colon hcs, colon_block]
  rfl

def keyTokens (b : Blocks) (n : Nat) (key : String) : List Token :=
  b.marks n .blockMappingStart ++ [.key, .scalar key true, .value]

def dashTokens (b : Blocks) (n : Nat) : List Token :=
  b.marks n .blockSequenceStart ++ [.blockEntry]

lemma At.key {key : String} (h : At ts b true column (key.toList ++ ':' :: cs) s)
    (hkey : isPlain key.toList) (hlength : key.toList.length ≤ 1024)
    (hcs : isSpaceOrEnd (cs.headD endMark)) (hdepth : (b.before column).1.indent ≤ column) :
    ∃ i l, Leads 2 s (block (ts ++ keyTokens b column key) ((b.before column).1.sink column) false []
      ⟨cs, i, l, column + key.toList.length + 1⟩) := by
  obtain ⟨i, l, hfetch⟩ := h.fetch
  have hstop : stopsPlain (':' :: cs) := by
    simp only [stopsPlain, headD_cons, tail_cons, hcs]
    decide
  rw [readToken_word hkey rfl, plain_block hkey hstop plainSpaces_colon (.inl rfl)] at hfetch
  have hdeep : (b.before column).1.indent ≤ ((column + key.toList.length : Nat) : Int) := by
    omega
  have hmarks : ts ++ keyTokens b column key = ts ++ List.replicate (b.before column).2 .blockEnd ++
      (if (b.before column).1.indent < column then [.blockMappingStart, .key] else [.key]) ++
        [.scalar key true, .value] := by
    by_cases hopen : (b.before column).1.indent < column
    · simp [keyTokens, Blocks.marks, hopen]
    · simp [keyTokens, Blocks.marks, hopen]
  rw [hmarks]
  exact ⟨i + key.toList.length + 1, l,
    (leads_of_fetch hfetch).trans (leads_of_fetch (fetch_colon (by simpa using hlength) hdeep hcs))⟩

lemma At.entry (h : At ts b true column ('-' :: ' ' :: cs) s) :
    ∃ i l, Leads 1 s (block (ts ++ dashTokens b column) ((b.before column).1.sink column) true []
      ⟨' ' :: cs, i, l, column + 1⟩) := by
  obtain ⟨i, l, hfetch⟩ := h.fetch
  refine ⟨i + 1, l, leads_of_fetch ?_⟩
  rw [hfetch]
  have hnext : (⟨'-' :: ' ' :: cs, i, l, column⟩ : Cursor).next = ⟨' ' :: cs, i + 1, l, column + 1⟩ :=
    next_inline (by decide)
  by_cases hopen : (b.before column).1.indent < column <;>
    simp [readToken, block, peek, peekAt, atSeparator, isSpaceOrEnd, indicator,
      deepen, Blocks.sink, dashTokens, Blocks.marks, hopen, push, hnext, dropKey, pure, Except.pure, bind, Except.bind,
      Except.map]

/-! ### Quoted scalars -/

def isQuotable (w : List Char) : Bool :=
  w.all fun c => isInline c && !(c = '\'' || c = '"' || c = '\\' || isSpaceOrEnd c)

lemma quotedWord_append {w : List Char} (hw : isQuotable w) (hcs : cs.headD endMark ≠ '\'') :
    quotedWord false (fuel + 1) ⟨w ++ '\'' :: cs, i, l, column⟩ [] =
      .ok (w, ⟨'\'' :: cs, i + w.length, l, column + w.length⟩) := by
  simp only [isQuotable, all_eq_true, Bool.and_eq_true] at hw
  have hspan : (⟨w ++ '\'' :: cs, i, l, column⟩ : Cursor).span
      (fun c => !(c = '\'' || c = '"' || c = '\\' || isSpaceOrEnd c)) =
        (w, ⟨'\'' :: cs, i + w.length, l, column + w.length⟩) :=
    span_inline (fun c hc => (hw c hc).2) (fun c hc => (hw c hc).1) (by simp)
  have hnext : (⟨'\'' :: cs, i + w.length, l, column + w.length⟩ : Cursor).peekAt 1 ≠ '\'' := by
    cases cs with
    | nil => exact hcs
    | cons c cs => exact hcs
  rw [quotedWord, hspan]
  dsimp only
  simp [hnext, peek, pure, Except.pure]

lemma quotedScalar_append {w : List Char} (hw : isQuotable w) (hcs : cs.headD endMark ≠ '\'') :
    quotedScalar false ⟨'\'' :: (w ++ '\'' :: cs), i, l, column⟩ =
      .ok (w, ⟨cs, i + 1 + w.length + 1, l, column + 1 + w.length + 1⟩) := by
  have hopen : (⟨'\'' :: (w ++ '\'' :: cs), i, l, column⟩ : Cursor).next =
      ⟨w ++ '\'' :: cs, i + 1, l, column + 1⟩ := next_inline (by decide)
  have hclose : (⟨'\'' :: cs, i + 1 + w.length, l, column + 1 + w.length⟩ : Cursor).next =
      ⟨cs, i + 1 + w.length + 1, l, column + 1 + w.length + 1⟩ := next_inline (by decide)
  rw [quotedScalar]
  dsimp only
  rw [hopen, quotedWord_append hw hcs, except_ok_bind]
  simp [quotedRest, peek, hclose, pure, Except.pure]

lemma readToken_quote : (block ts b allowed keys ⟨'\'' :: cs, i, l, column⟩).readToken =
    ((block ts b allowed keys ⟨'\'' :: cs, i, l, column⟩).keyLike fun k =>
      (quotedScalar false k).map fun (text, k) => (scalar (String.ofList text) false, k)).map
        (false, ·) := by
  simp [readToken, block, peek]

lemma keyLike_block {k' : Cursor} {read : Cursor → Except Fault (Token × Cursor)}
    (h : read k = .ok (t, k')) : (block ts b allowed [] k).keyLike read =
      .ok (block (ts ++ [t]) b false (noted ts b allowed k) k') := by
  have hplace : read (block ts b allowed (noted ts b allowed k) k).place = .ok (t, k') := h
  rw [keyLike, noteKey_block, except_ok_bind, hplace, except_ok_bind]
  exact congrArg Except.ok (push_block t)

lemma At.quoted
    (h : At ts b allowed column ('\'' :: (w.toList ++ ['\'']) ++ '\n' :: textOf lines) s)
    (hcolumn : b.indent < column) (hw : isQuotable w.toList) :
    ∃ s', Leads 1 s s' ∧ Before (ts ++ [scalar w false]) b lines s' := by
  rw [cons_append, append_assoc, singleton_append] at h
  obtain ⟨i, l, hfetch⟩ := h.fetch
  have hread : (quotedScalar false ⟨'\'' :: (w.toList ++ '\'' :: '\n' :: textOf lines), i, l, column⟩).map
      (fun (text, k) => (scalar (String.ofList text) false, k)) = .ok (scalar w false,
        ⟨[] ++ '\n' :: textOf lines, i + 1 + w.toList.length + 1, l, column + 1 + w.toList.length + 1⟩) := by
    rw [quotedScalar_append hw (by simp)]
    simp [Except.map]
  rw [before_of_le hcolumn.le, replicate_zero, append_nil, readToken_quote,
    keyLike_block hread] at hfetch
  refine ⟨_, leads_of_fetch hfetch, ?_⟩
  apply before_of_idle rfl
  apply forall_noted
  exact ⟨decide_eq_false hcolumn.ne, le_refl _⟩

/-! ### Lines -/

lemma sink_indent {n : Int} (h : b.indent ≤ n) : (b.sink n).indent = n := by
  by_cases hlt : b.indent < n
  · simp [Blocks.sink, hlt]
  · simp [Blocks.sink, hlt]
    omega

lemma At.key_text (key : String) (h : At ts b true column (key.toList ++ ':' :: ' ' :: text) s)
    (hkey : isPlain key.toList) (hlength : key.toList.length ≤ 1024)
    (hdepth : (b.before column).1.indent ≤ column) (htext : opens text) :
    ∃ s', Leads 2 s s' ∧ At (ts ++ keyTokens b column key) ((b.before column).1.sink column) false
      (column + key.toList.length + 2) text s' := by
  obtain ⟨i, l, hleads⟩ := h.key hkey hlength rfl hdepth
  exact ⟨_, hleads, at_of_blanks 1 htext⟩

lemma readToken_documentStart : (block [] {} allowed [] ⟨'-' :: '-' :: '-' :: '\n' :: cs, i, l, 0⟩).readToken =
    .ok (false, block [documentStart] {} false [] ⟨'\n' :: cs, i + 3, l, 3⟩) := by
  have hdashes : ∀ c ∈ ['-', '-', '-'], isInline c := by
    intro c hc
    rw [eq_of_mem_replicate (n := 3) hc]
    decide
  have hplace : (⟨'-' :: '-' :: '-' :: '\n' :: cs, i, l, 0⟩ : Cursor).forward 3 =
      ⟨'\n' :: cs, i + 3, l, 3⟩ := forward_inline hdashes
  simp [readToken, closeAll, unwind, unwind.close, dropKey, block, peek, atSeparator,
    isSpaceOrEnd, isBreakOrEnd, isBreak, hplace, push, Except.map, bind, Except.bind, pure, Except.pure]

lemma leads_documentStart (lines : List (List Char)) :
    ∃ s', Leads 1 { place := ofList ('-' :: '-' :: '-' :: '\n' :: textOf lines) } s' ∧
      Before [documentStart] {} lines s' := by
  have hstart : At [] {} true 0 ('-' :: '-' :: '-' :: '\n' :: textOf lines)
      (block [] {} true [] ⟨'-' :: '-' :: '-' :: '\n' :: textOf lines, 0, 0, 0⟩) := at_of_blanks 0 rfl
  obtain ⟨i, l, hfetch⟩ := hstart.fetch
  exact ⟨_, leads_of_fetch (hfetch.trans readToken_documentStart), before_of_lineEnd⟩

/-! ### The end -/

lemma At.stop (h : At ts b allowed column [] s) (fuel : Nat) :
    (run (fuel + 1) s).toList = ts ++ List.replicate ((b.before column).2 +
      ((b.before column).1.before (-1)).2) blockEnd ++ [streamEnd] := by
  obtain ⟨i, l, hfetch⟩ := h.fetch
  have hclose : (block (ts ++ List.replicate (b.before column).2 blockEnd) (b.before column).1 allowed []
      ⟨[], i, l, column⟩).readToken = .ok (true, block (ts ++ List.replicate (b.before column).2 blockEnd ++
        List.replicate ((b.before column).1.before (-1)).2 blockEnd ++ [streamEnd])
        ((b.before column).1.before (-1)).1 false [] ⟨[], i, l, column⟩) := by
    change (closeAll _ >>= _) = _
    rw [closeAll, unwind_block, dropKey_block]
    exact congrArg (fun s => Except.ok (true, s)) (push_block _)
  rw [run, hfetch, hclose, replicate_add]
  simp [tokensAfter, block]

end Token.Lexer

end AssetCatalog.Yaml
