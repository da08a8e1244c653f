import AssetCatalog.Proofs.YamlBlocks

/-!
# Lines of block texts

What each kind of line adds to the tokens.
-/

namespace AssetCatalog.Yaml.Token.Lexer

open List

variable {ts : List Token} {b : Blocks} {lines : List (List Char)} {key w : String} {line text : List Char} {n : Nat}
  {s : Lexer}

lemma opens_append {w : List Char} (hw : isPlain w) (tail : List Char) : opens (w ++ tail) := by
  simp only [isPlain, Bool.and_eq_true, all_eq_true, Bool.not_eq_true'] at hw
  obtain ⟨⟨hstart, hparts⟩, -⟩ := hw
  cases w with
  | nil => exact absurd hstart (by decide)
  | cons c w =>
    have hspace := (hparts c mem_cons_self).2
    have hhash : c ≠ '#' := by
      rintro rfl
      rw [headD_cons] at hstart
      exact absurd hstart (by decide)
    simp only [isSpaceOrEnd, isBreakOrEnd, Bool.or_eq_false_iff, decide_eq_false_iff_not] at hspace
    simp [opens, hspace, hhash]

lemma all_textOf {p : Char → Bool} (hp : p '\n') (lines : List (List Char)) :
    (textOf lines).all p = lines.all (·.all p) := by
  induction lines with
  | nil => rfl
  | cons line lines ih => simp [ih, hp]

lemma length_textOf_le_of_suffix {last : List (List Char)} (h : last <:+ lines) :
    (textOf last).length ≤ (textOf lines).length := by
  obtain ⟨first, rfl⟩ := h
  rw [textOf_append, length_append]
  omega

lemma isIdle_comment (n : Nat) (note : List Char) :
    isIdle (List.replicate n ' ' ++ '#' :: note) = note.all isInline := by
  rw [isIdle, dropWhile_append_of_pos (by simp)]
  simp

lemma Before.skip_idle {idle : List (List Char)} (hidle : ∀ line ∈ idle, isIdle line)
    (h : Before ts b (idle ++ lines) s) : Before ts b lines s := by
  intro more rest n text hlines htext hmore
  refine h (idle ++ more) rest n text (by rw [hlines, append_assoc]) htext fun line hline => ?_
  exact (mem_append.mp hline).elim (hidle line) (hmore line)

lemma Before.at_line (h : Before ts b lines s)
    (htext : textOf lines = List.replicate n ' ' ++ text) (hopens : opens text) :
    At ts b true n text s :=
  h [] lines n text rfl htext (by simp) hopens

def keyLine (n : Nat) (key : String) (text : List Char) : List Char :=
  List.replicate n ' ' ++ (key.toList ++ ':' :: text)

def entryLine (n : Nat) (text : List Char) : List Char := List.replicate n ' ' ++ '-' :: ' ' :: text

lemma Before.at_key (h : Before ts b (keyLine n key text :: lines) s) (hkey : isPlain key.toList) :
    At ts b true n (key.toList ++ ':' :: (text ++ '\n' :: textOf lines)) s :=
  h.at_line (by simp [keyLine]) (opens_append hkey _)

lemma Before.key_open (h : Before ts b (keyLine n key [] :: lines) s) (hkey : isPlain key.toList)
    (hlength : key.toList.length ≤ 1024) (hdepth : (b.before n).1.indent ≤ n) :
    ∃ s', Leads 2 s s' ∧ Before (ts ++ keyTokens b n key) ((b.before n).1.sink n) lines s' := by
  obtain ⟨i, l, hleads⟩ := (h.at_key hkey).key hkey hlength rfl hdepth
  exact ⟨_, hleads, before_of_lineEnd⟩

lemma Before.entry_text (h : Before ts b (entryLine n text :: lines) s)
    (htext : opens (text ++ '\n' :: textOf lines)) :
    ∃ s', Leads 1 s s' ∧ At (ts ++ dashTokens b n) ((b.before n).1.sink n) true (n + 2)
      (text ++ '\n' :: textOf lines) s' := by
  have hline : textOf (entryLine n text :: lines) =
      List.replicate n ' ' ++ '-' :: ' ' :: (text ++ '\n' :: textOf lines) := by
    simp [entryLine]
  obtain ⟨i, l, hleads⟩ := (h.at_line hline rfl).entry
  exact ⟨_, hleads, at_of_blanks 1 htext⟩

lemma Before.entry_word (h : Before ts b (entryLine n w.toList :: line :: lines) s)
    (hdepth : (b.before n).1.indent ≤ n) (hw : isPlain w.toList) (hline : endsScalar n line) :
    ∃ s', Leads 2 s s' ∧ Before (ts ++ dashTokens b n ++ [.scalar w true])
      ((b.before n).1.sink n) (line :: lines) s' := by
  obtain ⟨s₁, hleads, hat⟩ := h.entry_text (opens_append hw _)
  have hindent := sink_indent hdepth
  obtain ⟨s₂, hleads', hbefore⟩ := hat.scalar_line (by rw [hindent]; omega) hw
    (by rw [hindent]; exact hline)
  exact ⟨s₂, hleads.trans hleads', hbefore⟩

lemma endsScalar_entryLine {n : Nat} (hn : n ≠ 0) (text : List Char) : endsScalar n (entryLine n text) := by
  have htake : (entryLine n text).takeWhile (· = ' ') = List.replicate n ' ' := by
    rw [entryLine, takeWhile_append_of_pos (by simp)]
    simp
  have hdrop : (entryLine n text).dropWhile (· = ' ') = '-' :: ' ' :: text := by
    rw [entryLine, dropWhile_append_of_pos (by simp)]
    simp
  simp only [endsScalar, htake, hdrop, length_replicate]
  simp [hn, isBreakOrEnd, isBreak, endMark]

def entryTokens (words : List String) : List Token :=
  words.flatMap fun w => [Token.blockEntry, Token.scalar w true]

lemma Before.entries {words : List String} (hn : n ≠ 0) (hdepth : (b.before n).1.indent ≤ n)
    (hwords : ∀ word ∈ w :: words, isPlain word.toList) (hline : endsScalar n line)
    (h : Before ts b ((w :: words).map (fun word => entryLine n word.toList) ++ line :: lines) s) :
    ∃ s', Leads (2 * (w :: words).length) s s' ∧
      Before (ts ++ b.marks n Token.blockSequenceStart ++ entryTokens (w :: words))
        ((b.before n).1.sink n) (line :: lines) s' := by
  have hw : isPlain w.toList := hwords w mem_cons_self
  induction words generalizing ts b w s with
  | nil =>
    obtain ⟨s₁, hleads, hlater⟩ := h.entry_word hdepth hw hline
    rw [dashTokens, ← append_assoc, append_assoc _ [Token.blockEntry]] at hlater
    exact ⟨s₁, hleads, hlater⟩
  | cons w' words ih =>
    obtain ⟨s₁, hleads, hlater⟩ := h.entry_word hdepth hw (endsScalar_entryLine hn w'.toList)
    -- the first entry opens the sequence, and the others find it open
    have hindent := sink_indent hdepth
    have hbefore : ((b.before n).1.sink n).before n = ((b.before n).1.sink n, 0) := before_of_le hindent.le
    have hsink : ((b.before n).1.sink n).sink n = (b.before n).1.sink n := by
      rw [Blocks.sink, if_neg (by omega)]
    have hmarks : ((b.before n).1.sink n).marks n Token.blockSequenceStart = [] := by
      simp [Blocks.marks, hbefore, hindent]
    have hrest := (forall_mem_cons.mp hwords).2
    obtain ⟨s₂, hleads', hlast⟩ := ih (by rw [hbefore, hindent]) hrest hlater (hrest w' mem_cons_self)
    rw [hbefore, hsink, hmarks, append_nil, dashTokens] at hlast
    refine ⟨s₂, ?_, by simpa [entryTokens] using hlast⟩
    exact hleads.trans hleads'

end AssetCatalog.Yaml.Token.Lexer
