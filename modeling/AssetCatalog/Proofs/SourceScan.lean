import AssetCatalog.Proofs.SourceLexer
import AssetCatalog.Proofs.SourceStatement
import AssetCatalog.Proofs.TextLines

/-!
# Tokens and their places

A literal without escapes may be given another body: tokens behind it only move.
-/

namespace AssetCatalog.Source

open List Token

variable {q : Position} {u : Token} {σ : Change}

namespace Position

def key (p : Position) : ℕ ×ₗ ℕ := toLex (p.line, p.column)

lemma key_injective : Function.Injective key := by
  intro p q h
  cases p
  cases q
  simpa [key] using h

instance : LinearOrder Position := LinearOrder.lift' key key_injective

lemma lt_iff {p : Position} : p < q ↔ p.line < q.line ∨ p.line = q.line ∧ p.column < q.column :=
  Prod.Lex.lt_iff

lemma le_iff {p : Position} : p ≤ q ↔ p.line < q.line ∨ p.line = q.line ∧ p.column ≤ q.column :=
  Prod.Lex.le_iff

end Position

namespace Token

variable {l : Layout} {a cs : List Char} {ts : List Token} {p : Position} {t : Token} {x : Piece}
  {s : Scan} {fuel : Nat}

/-! ## Places -/

lemma advance_cons (p : Position) (c : Char) (cs : List Char) : advance p (c :: cs) =
      advance (if c = '\n' then ⟨p.line + 1, 0⟩ else ⟨p.line, p.column + c.utf8Size⟩) cs := by
  by_cases hc : c = '\n'
  · subst hc
    rfl
  · rw [if_neg hc, advance]
    exact hc

lemma advance_append (p : Position) (a b : List Char) :
    advance p (a ++ b) = advance (advance p a) b := by
  induction a generalizing p with
  | nil => rfl
  | cons c a ih => rw [cons_append, advance_cons, advance_cons, ih]

lemma lt_step (p : Position) (c : Char) :
    p < if c = '\n' then ⟨p.line + 1, 0⟩ else ⟨p.line, p.column + c.utf8Size⟩ := by
  have hsize := c.utf8Size_pos
  rw [Position.lt_iff]
  split
  · left
    exact Nat.lt_succ_self _
  · right
    exact ⟨rfl, Nat.lt_add_of_pos_right hsize⟩

lemma le_advance (p : Position) (cs : List Char) : p ≤ advance p cs := by
  induction cs generalizing p with
  | nil => exact le_refl p
  | cons c cs ih =>
    rw [advance_cons]
    exact (lt_step p c).le.trans (ih _)

lemma lt_advance (p : Position) (hcs : cs ≠ []) : p < advance p cs := by
  obtain ⟨c, cs, rfl⟩ := exists_cons_of_ne_nil hcs
  rw [advance_cons]
  exact (lt_step p c).trans_le (le_advance _ cs)

lemma eq_nil_of_advance (h : advance p cs = p) : cs = [] := by
  by_contra hcs
  exact (lt_advance p hcs).ne' h

lemma advance_start (a : List Char) :
    advance ⟨1, 0⟩ a = ⟨1 + a.count '\n', ((Text.lastLine a).map Char.utf8Size).sum⟩ := by
  induction a using List.reverseRecOn with
  | nil => rfl
  | append_singleton a c ih =>
    rw [advance_append, ih, advance_cons]
    by_cases hc : c = '\n'
    · subst hc
      simp [Text.lastLine_feed, advance, Nat.add_assoc]
    · simp [Text.lastLine_char a hc, hc, advance]

lemma sum_utf8Size (ha : ∀ c ∈ a, c.toNat < 128) : (a.map Char.utf8Size).sum = a.length := by
  induction a with
  | nil => rfl
  | cons c a ih =>
    obtain ⟨hc, ha⟩ := forall_mem_cons.mp ha
    have hone : c.utf8Size = 1 := by
      rw [Char.utf8Size_eq_one_iff, UInt32.le_iff_toNat_le]
      exact Nat.le_of_lt_succ hc
    simp [hone, ih ha, Nat.add_comm]

lemma advance_inline {m : List Char} (hm : '\n' ∉ m) :
    advance p m = ⟨p.line, p.column + (m.map Char.utf8Size).sum⟩ := by
  induction m generalizing p with
  | nil => rfl
  | cons c m ih =>
    simp only [mem_cons, not_or] at hm
    rw [advance_cons, if_neg (Ne.symm hm.1), ih hm.2]
    simp [Nat.add_assoc]

lemma exists_eq_append_of_advance_le {u v r : List Char} (h : u ++ v = a ++ r)
    (hle : advance p u ≤ advance p a) : ∃ g, a = u ++ g := by
  obtain ⟨g, hg, -⟩ | ⟨g, rfl, -⟩ := append_eq_append_iff.mp h
  · exact ⟨g, hg⟩
  · rw [advance_append] at hle
    obtain rfl := eq_nil_of_advance (le_antisymm hle (le_advance _ g))
    exact ⟨[], by simp⟩

/-! ## Reading without fuel -/

def Piece.tokens (x : Piece) (start stop : Position) : List Token :=
  x.token.toList.map (⟨·, ⟨start, stop⟩⟩) ++ (x.blocks.map (⟨·, ⟨stop, stop⟩⟩)).reverse

/-- The tokens that characters are read as, from a layout and a place. -/
inductive Reads : Layout → Position → List Char → List Token → Prop
  | done {l : Layout} {p : Position} (hl : l.brackets = []) :
    Reads l p [] (l.indents.map fun _ => ⟨.dedent, ⟨p, p⟩⟩)
  | piece {l : Layout} {p : Position} {cs : List Char} {x : Piece} {ts : List Token} (hcs : cs ≠ [])
    (hx : nextPiece l cs = .ok x)
    (hts : Reads x.layout (advance p (cs.take x.size)) (cs.drop x.size) ts) :
    Reads l p cs (x.tokens p (advance p (cs.take x.size)) ++ ts)

lemma reads_nil_iff :
    Reads l p [] ts ↔ l.brackets = [] ∧ ts = l.indents.map fun _ => ⟨.dedent, ⟨p, p⟩⟩ := by
  constructor
  · intro h
    cases h with
    | done hl => exact ⟨hl, rfl⟩
    | piece hcs => exact absurd rfl hcs
  · rintro ⟨hl, rfl⟩
    exact .done hl

lemma reads_iff_piece (hcs : cs ≠ []) : Reads l p cs ts ↔ ∃ x, nextPiece l cs = .ok x ∧
      ∃ ts', Reads x.layout (advance p (cs.take x.size)) (cs.drop x.size) ts' ∧
        ts = x.tokens p (advance p (cs.take x.size)) ++ ts' := by
  constructor
  · intro h
    cases h with
    | done => exact absurd rfl hcs
    | piece _ hx hts => exact ⟨_, hx, _, hts, rfl⟩
  · rintro ⟨x, hx, ts', hts, rfl⟩
    exact .piece hcs hx hts

/-- A piece at which nothing changes would be read again and again. -/
lemma Reads.moves (h : Reads l p cs ts) (hcs : cs ≠ []) (hx : nextPiece l cs = .ok x) :
    x.Moves l := by
  induction h with
  | done => exact absurd rfl hcs
  | @piece l p cs y ts _ hy _ ih =>
    obtain rfl : y = x := Except.ok.inj (hy.symm.trans hx)
    obtain hmoves | hlayout := (nextPiece_sound hcs hx).moves
    · exact hmoves
    · obtain hzero | hsize := Nat.eq_zero_or_pos y.size
      · rw [hzero, hlayout, drop_zero] at ih
        exact ih hcs hx
      · exact .inl hsize

/-- The steps that are left: a character takes at most two. -/
def Scan.steps (s : Scan) : Nat := 2 * s.rest.length + s.layout.fresh.toNat

lemma steps_pass (hrest : s.rest ≠ []) (hx : x.Moves s.layout) : (s.pass x).steps < s.steps := by
  have hlen : 0 < s.rest.length := length_pos_iff.mpr hrest
  simp only [Scan.steps, Scan.pass, length_drop]
  obtain hsize | ⟨hfresh, hstale, -⟩ := hx
  · have hle := Bool.toNat_le x.layout.fresh
    omega
  · rw [hfresh, hstale, Bool.toNat_true, Bool.toNat_false]
    omega

lemma tokens_pass (s : Scan) (x : Piece) : (s.pass x).tokens.reverse =
    s.tokens.reverse ++ x.tokens s.position (advance s.position (s.rest.take x.size)) := by
  cases hx : x.token <;> simp [Scan.pass, Piece.tokens, hx]

lemma scanAll_nil (hrest : s.rest = []) : scanAll (fuel + 1) s = .ok ts ↔
      ∃ ts', Reads s.layout s.position s.rest ts' ∧ ts = s.tokens.reverse ++ ts' := by
  rw [scanAll, hrest]
  simp only [List.isEmpty_nil, if_true, reads_nil_iff, List.isEmpty_iff]
  by_cases hl : s.layout.brackets = []
  · simp [hl, pure, Except.pure, eq_comm]
  · simp [hl]

lemma scanAll_piece (hrest : s.rest ≠ []) : scanAll (fuel + 1) s = .ok ts ↔
    ∃ x, nextPiece s.layout s.rest = .ok x ∧ scanAll fuel (s.pass x) = .ok ts := by
  rw [scanAll, if_neg (by simpa using hrest), except_bind_eq_ok]

lemma reads_of_scanAll (h : scanAll fuel s = .ok ts) :
    ∃ ts', Reads s.layout s.position s.rest ts' ∧ ts = s.tokens.reverse ++ ts' := by
  induction fuel generalizing s with
  | zero => cases h
  | succ fuel ih =>
    by_cases hrest : s.rest = []
    · exact (scanAll_nil hrest).mp h
    · obtain ⟨x, hx, h⟩ := (scanAll_piece hrest).mp h
      obtain ⟨ts', hts, rfl⟩ := ih h
      exact ⟨_, .piece hrest hx hts, by rw [tokens_pass, append_assoc]⟩

lemma scanAll_of_reads (hfuel : s.steps < fuel) (h : Reads s.layout s.position s.rest ts) :
    scanAll fuel s = .ok (s.tokens.reverse ++ ts) := by
  induction fuel generalizing s ts with
  | zero => omega
  | succ fuel ih =>
    by_cases hrest : s.rest = []
    · exact (scanAll_nil hrest).mpr ⟨ts, h, rfl⟩
    · obtain ⟨x, hx, ts', hts, rfl⟩ := (reads_iff_piece hrest).mp h
      have hless := steps_pass hrest (h.moves hrest hx)
      refine (scanAll_piece hrest).mpr ⟨x, hx, ?_⟩
      rw [ih (s := s.pass x) (by omega) hts, tokens_pass, append_assoc]

/-- The text with the end of its last line. -/
def ended (text : List Char) : List Char :=
  if text.getLast?.all (· = '\n') then text else text ++ ['\n']

lemma ofText_eq_ok_iff {text : List Char} :
    ofText text = .ok ts ↔ '\x00' ∉ text ∧ Reads {} ⟨1, 0⟩ (ended text) ts := by
  have hscan : scanAll (2 * (ended text).length + 2) { rest := ended text, position := ⟨1, 0⟩ } = .ok ts ↔
      Reads {} ⟨1, 0⟩ (ended text) ts := by
    refine ⟨fun h => ?_, fun h => scanAll_of_reads (by simp [Scan.steps]) h⟩
    obtain ⟨ts', hts, rfl⟩ := reads_of_scanAll h
    exact hts
  rw [← hscan, ofText]
  by_cases h : '\x00' ∈ text
  · simp [h]
  · simp [h, ended]

/-! ## The order of tokens -/

/-- Tokens that stand one behind the other; only literals are known to take room. -/
structure Ordered (ts : List Token) : Prop where
  le : ∀ t ∈ ts, t.span.start ≤ t.span.stop
  lt : ∀ t ∈ ts, t.lexeme.isQuote = true → t.span.start < t.span.stop
  pairwise : ts.Pairwise fun t u => t.span.stop ≤ u.span.start

lemma Ordered.tail (h : Ordered (t :: ts)) : Ordered ts where
  le u hu := h.le u (mem_cons_of_mem t hu)
  lt u hu := h.lt u (mem_cons_of_mem t hu)
  pairwise := h.pairwise.of_cons

lemma Ordered.stop_le_start (h : Ordered ts) (ht : t ∈ ts) (hu : u ∈ ts) (hne : t ≠ u)
    (hroom : u.span.start < u.span.stop) (hle : t.span.start ≤ u.span.start) :
    t.span.stop ≤ u.span.start := by
  let apart (t u : Token) : Prop := t.span.stop ≤ u.span.start ∨ u.span.stop ≤ t.span.start
  have : Std.Symm apart := ⟨fun _ _ => Or.symm⟩
  have hpairwise : ts.Pairwise apart := h.pairwise.imp Or.inl
  obtain hfirst | hsecond := hpairwise.forall ht hu hne
  · exact hfirst
  · exact absurd (hsecond.trans hle) (not_le.mpr hroom)

lemma Ordered.eq_of_start_eq (h : Ordered ts) (ht : t ∈ ts) (hu : u ∈ ts)
    (hstart : t.span.start = u.span.start) (hroom : t.span.start < t.span.stop)
    (hroom' : u.span.start < u.span.stop) : t = u := by
  by_contra hne
  have hle := h.stop_le_start ht hu hne hroom' hstart.le
  exact absurd hroom (not_lt.mpr (hstart ▸ hle))

lemma Ordered.mem_front {front back : List Token} (hts : Ordered (front ++ u :: back))
    (ht : t ∈ front ++ u :: back) (hlt : t.span.start < u.span.start) : t ∈ front := by
  obtain ht | ht := mem_append.mp ht
  · exact ht
  obtain rfl | ht := mem_cons.mp ht
  · exact absurd hlt (lt_irrefl _)
  · have hbehind := rel_of_pairwise_cons (pairwise_append.mp hts.pairwise).2.1 ht
    have hroom := hts.le u (mem_append_right _ mem_cons_self)
    exact absurd hlt (not_lt.mpr (hroom.trans hbehind))

lemma mem_tokens (h : t ∈ x.tokens p q) :
    (t.span = ⟨p, q⟩ ∧ x.token = some t.lexeme) ∨ (t.span = ⟨q, q⟩ ∧ t.lexeme ∈ x.blocks) := by
  rw [Piece.tokens, mem_append, mem_reverse, mem_map, mem_map] at h
  obtain ⟨b, hb, rfl⟩ | ⟨b, hb, rfl⟩ := h
  · exact .inl ⟨rfl, Option.mem_toList.mp hb⟩
  · exact .inr ⟨rfl, hb⟩

lemma Reads.le_start (h : Reads l p cs ts) : ∀ t ∈ ts, p ≤ t.span.start := by
  induction h with
  | done =>
    intro t ht
    obtain ⟨_, -, rfl⟩ := mem_map.mp ht
    exact le_refl _
  | @piece l p cs x ts hcs hx _ ih =>
    intro t ht
    have hle := le_advance p (cs.take x.size)
    obtain ht | ht := mem_append.mp ht
    · obtain ⟨hspan, -⟩ | ⟨hspan, -⟩ := mem_tokens ht
      · rw [hspan]
      · rw [hspan]
        exact hle
    · exact hle.trans (ih t ht)

lemma pairwise_tokens (x : Piece) :
    (x.tokens p q).Pairwise fun t u => t.span.stop ≤ u.span.start := by
  have hblocks : ((x.blocks.map fun b => (⟨b, ⟨q, q⟩⟩ : Token)).reverse).Pairwise
      fun t u => t.span.stop ≤ u.span.start := by
    rw [pairwise_reverse, pairwise_map]
    exact pairwise_of_forall fun _ _ => le_refl q
  rw [Piece.tokens, pairwise_append]
  refine ⟨by cases x.token <;> simp, hblocks, ?_⟩
  intro t ht u hu
  obtain ⟨_, -, rfl⟩ := mem_map.mp ht
  obtain ⟨_, -, rfl⟩ := mem_map.mp (mem_reverse.mp hu)
  exact le_refl q

lemma Reads.ordered (h : Reads l p cs ts) : Ordered ts := by
  induction h with
  | @done l p =>
    have hmem {t : Token} (ht : t ∈ l.indents.map fun _ => (⟨.dedent, ⟨p, p⟩⟩ : Token)) :
        t = ⟨.dedent, ⟨p, p⟩⟩ := by
      obtain ⟨_, -, rfl⟩ := mem_map.mp ht
      rfl
    refine ⟨fun t ht => ?_, fun t ht hq => ?_, ?_⟩
    · rw [hmem ht]
    · rw [hmem ht] at hq
      cases hq
    · rw [pairwise_map]
      exact pairwise_of_forall fun _ _ => le_refl p
  | @piece l p cs x ts hcs hx hts ih =>
    have hmoves := (Reads.piece hcs hx hts).moves hcs hx
    have hstop {t : Token} (ht : t ∈ x.tokens p (advance p (cs.take x.size))) :
        t.span.stop = advance p (cs.take x.size) := by
      obtain ⟨hspan, -⟩ | ⟨hspan, -⟩ := mem_tokens ht <;> rw [hspan]
    refine ⟨fun t ht => ?_, fun t ht hq => ?_, ?_⟩
    · obtain ht | ht := mem_append.mp ht
      · obtain ⟨hspan, -⟩ | ⟨hspan, -⟩ := mem_tokens ht <;> rw [hspan]
        exact le_advance _ _
      · exact ih.le t ht
    · obtain ht | ht := mem_append.mp ht
      · obtain ⟨hspan, htoken⟩ | ⟨-, hblock⟩ := mem_tokens ht
        · rw [hspan]
          obtain hsize | ⟨-, -, hnone⟩ := hmoves
          · apply lt_advance
            rw [ne_eq, take_eq_nil_iff]
            rintro (hzero | hnil)
            · omega
            · exact hcs hnil
          · rw [hnone] at htoken
            cases htoken
        · rw [(nextPiece_sound hcs hx).blocks _ hblock] at hq
          cases hq
      · exact ih.lt t ht hq
    · rw [pairwise_append]
      refine ⟨pairwise_tokens x, ih.pairwise, fun t ht u hu => ?_⟩
      rw [hstop ht]
      exact hts.le_start u hu

/-! ## Another body for a literal -/

lemma forget_of_none (h : σ t.span = none) : t.forget σ = ⟨t.lexeme, default⟩ := by
  rw [forget, h]

lemma map_forget_of_none {σ' : Change} {ts' : List Token}
    (hlexeme : ts'.map lexeme = ts.map lexeme) (h : ∀ t ∈ ts, σ t.span = none)
    (h' : ∀ t ∈ ts', σ' t.span = none) : ts'.map (forget σ') = ts.map (forget σ) := by
  have hall {σ : Change} {ts : List Token} (h : ∀ t ∈ ts, σ t.span = none) :
      ts.map (forget σ) = (ts.map lexeme).map (⟨·, default⟩) := by
    rw [map_map]
    exact map_congr_left fun t ht => forget_of_none (h t ht)
  rw [hall h, hall h', hlexeme]

lemma map_lexeme_tokens (x : Piece) (p q p' q' : Position) :
    (x.tokens p q).map lexeme = (x.tokens p' q').map lexeme := by
  simp [Piece.tokens, map_reverse, Function.comp_def]

lemma Reads.moved (h : Reads l p cs ts) (p' : Position) :
    ∃ ts', Reads l p' cs ts' ∧ ts'.map lexeme = ts.map lexeme := by
  induction h generalizing p' with
  | done hl => exact ⟨_, .done hl, by simp⟩
  | @piece l p cs x ts hcs hx _ ih =>
    obtain ⟨ts', hts', hlex⟩ := ih (advance p' (cs.take x.size))
    refine ⟨_, .piece hcs hx hts', ?_⟩
    rw [map_append, map_append, hlex, map_lexeme_tokens]

def literalToken (p : Position) (quote : Char) (long : Bool) (body : List Char) : Token :=
  ⟨.quote { body := body }, ⟨p, advance p (literal quote long body)⟩⟩

lemma literal_ne_nil (quote : Char) (long : Bool) (body : List Char) : literal quote long body ≠ [] := by
  cases long <;> exact cons_ne_nil _ _

variable {c : Char} (hc : isQuoteChar c = true) {long : Bool} {old new : List Char}
  (hold : Plain c old) (hnew : Plain c new)
include hc hold hnew

lemma Reads.edit {post : List Char} (h : Reads l p (a ++ (literal c long old ++ post)) ts)
    (ht : ∃ t ∈ ts, t.span.start = advance p a ∧ t.span.start < t.span.stop) :
    ∃ front back back', ts = front ++ literalToken (advance p a) c long old :: back ∧
      Reads l p (a ++ (literal c long new ++ post))
        (front ++ literalToken (advance p a) c long new :: back') ∧
      back'.map lexeme = back.map lexeme := by
  generalize hcs : a ++ (literal c long old ++ post) = cs at h
  have hfirst (w : List Char) : ∃ b, literal c long w ++ post = c :: b := by
    cases long <;> exact ⟨_, rfl⟩
  obtain ⟨b, hb⟩ := hfirst old
  obtain ⟨b', hb'⟩ := hfirst new
  induction h generalizing a with
  | done => simp [hb] at hcs
  | @piece l p cs x ts hne hx hts ih =>
    subst hcs
    obtain ⟨t, ht, hstart, hroom⟩ := ht
    obtain hsize | hsize := Nat.lt_or_ge a.length x.size
    · -- the token cannot start behind the piece, so that the piece is the literal
      have hpast : advance p a < advance p ((a ++ (literal c long old ++ post)).take x.size) := by
        rw [take_append, take_of_length_le hsize.le, advance_append]
        apply lt_advance
        rw [hb, ne_eq, take_eq_nil_iff]
        rintro (hzero | hnil)
        · omega
        · cases hnil
      obtain ht | ht := mem_append.mp ht
      · obtain ⟨hspan, htoken⟩ | ⟨hspan, -⟩ := mem_tokens ht
        · rw [hspan] at hstart
          obtain rfl := eq_nil_of_advance hstart.symm
          rw [nil_append] at hx hts hne ⊢
          cases hl : l.fresh && l.brackets.isEmpty with
          | true =>
            rw [hb, nextPiece_quote_fresh hc hl] at hx
            rw [(indentPiece_spec hx).2.1] at htoken
            cases htoken
          | false =>
            rw [nextPiece_literal hc hl long hold post] at hx
            cases hx
            rw [take_left, drop_left] at hts
            obtain ⟨back', hreads, hback⟩ := hts.moved (advance p (literal c long new))
            refine ⟨[], ts, back', ?_, ?_, hback⟩
            · rw [take_left]
              rfl
            · have hx' := nextPiece_literal hc hl long hnew post
              have hne' : literal c long new ++ post ≠ [] := by
                rw [hb']
                exact cons_ne_nil c b'
              have hall := Reads.piece (p := p) hne' hx'
                (by rw [take_left, drop_left]; exact hreads)
              rw [take_left] at hall
              exact hall
        · rw [hspan] at hroom
          exact absurd hroom (lt_irrefl _)
      · rw [← hstart] at hpast
        exact absurd (hts.le_start t ht) (not_le.mpr hpast)
    · -- the piece lies in front of the literal
      have hx' : nextPiece l (a ++ (literal c long new ++ post)) = .ok x := by
        rw [hb] at hx
        rw [hb']
        exact nextPiece_local hc hx hsize b'
      rw [take_append_of_le_length hsize] at ht hts ih ⊢
      have hplace : advance p a = advance (advance p (a.take x.size)) (a.drop x.size) := by
        rw [← advance_append, take_append_drop]
      have hlater : t ∈ ts := by
        obtain ht | ht := mem_append.mp ht
        · obtain ⟨hspan, -⟩ | ⟨hspan, -⟩ := mem_tokens ht
          · rw [hspan] at hstart hroom
            obtain rfl := eq_nil_of_advance hstart.symm
            rw [take_nil] at hroom
            exact absurd hroom (lt_irrefl _)
          · rw [hspan] at hroom
            exact absurd hroom (lt_irrefl _)
        · exact ht
      obtain ⟨front, back, back', rfl, hreads, hback⟩ :=
        ih ⟨t, hlater, hstart.trans hplace, hroom⟩ (by rw [drop_append_of_le_length hsize])
      rw [← hplace] at hreads ⊢
      refine ⟨x.tokens p (advance p (a.take x.size)) ++ front, back, back', by rw [append_assoc], ?_,
        hback⟩
      have hne' : a ++ (literal c long new ++ post) ≠ [] := by
        rw [hb']
        simp
      rw [append_assoc, ← take_append_of_le_length hsize]
      refine .piece hne' hx' ?_
      rw [take_append_of_le_length hsize, drop_append_of_le_length hsize]
      exact hreads

omit hold hnew in
lemma ended_literal (a post w : List Char) : ended (a ++ (literal c long w ++ post)) =
      a ++ (literal c long w ++ if post.getLast? = some '\n' then post else post ++ ['\n']) := by
  have hne : c ≠ '\n' := ne_of_isQuoteChar hc rfl
  have hlast : (literal c long w).getLast? = some c := by
    rw [literal, getLast?_append]
    cases long <;> rfl
  have hall : (a ++ (literal c long w ++ post)).getLast?.all (· = '\n') ↔ post.getLast? = some '\n' := by
    rw [getLast?_append, getLast?_append, hlast]
    cases post.getLast? <;> simp [hne]
  rw [ended]
  split
  · next h => rw [if_pos (hall.mp h)]
  · next h =>
    rw [if_neg (mt hall.mpr h)]
    simp only [append_assoc]

lemma ofText_edit {post : List Char} (h : ofText (a ++ (literal c long old ++ post)) = .ok ts)
    (hzero : '\x00' ∉ new)
    (ht : ∃ t ∈ ts, t.span.start = advance ⟨1, 0⟩ a ∧ t.span.start < t.span.stop) :
    ∃ front back back', ts = front ++ literalToken (advance ⟨1, 0⟩ a) c long old :: back ∧
      ofText (a ++ (literal c long new ++ post)) =
        .ok (front ++ literalToken (advance ⟨1, 0⟩ a) c long new :: back') ∧
      back'.map lexeme = back.map lexeme := by
  rw [ofText_eq_ok_iff, ended_literal hc] at h
  obtain ⟨hall, hreads⟩ := h
  obtain ⟨front, back, back', rfl, hreads', hback⟩ := hreads.edit hc hold hnew ht
  refine ⟨front, back, back', rfl, ofText_eq_ok_iff.mpr ⟨?_, ?_⟩, hback⟩
  · simp only [mem_literal, mem_append, not_or] at hall ⊢
    tauto
  · rw [ended_literal hc]
    exact hreads'

end Token

/-! ## Places of literals -/

section Places

open Token

variable {joined : Bool} {ts : List Token} {s : Span} {t : Token}

lemma mem_places (h : s ∈ places joined ts) :
    ∃ t ∈ ts, t.span.start = s.start ∧ (t.lexeme.isQuote ∨ s = t.span) := by
  induction ts generalizing joined with
  | nil => cases h
  | cons t ts ih =>
    have hlater {joined : Bool} (h : s ∈ places joined ts) :
        ∃ u ∈ t :: ts, u.span.start = s.start ∧ (u.lexeme.isQuote ∨ s = u.span) := by
      obtain ⟨u, hu, hs⟩ := ih h
      exact ⟨u, mem_cons_of_mem t hu, hs⟩
    rw [places] at h
    split at h
    · next hq =>
      split at h
      · exact hlater h
      · obtain rfl | h := mem_cons.mp h
        · exact ⟨t, mem_cons_self, rfl, .inl hq⟩
        · exact hlater h
    · obtain rfl | h := mem_cons.mp h
      · exact ⟨t, mem_cons_self, rfl, .inr rfl⟩
      · exact hlater h

lemma exists_token_of_mem_places (hts : Ordered ts) (h : s ∈ places joined ts)
    (hs : s.start < s.stop) : ∃ t ∈ ts, t.span.start = s.start ∧ t.span.start < t.span.stop := by
  obtain ⟨t, ht, hstart, hq | rfl⟩ := mem_places h
  · exact ⟨t, ht, hstart, hts.lt t ht hq⟩
  · exact ⟨t, ht, hstart, hs⟩

lemma stop_le_of_mem_places (hts : Ordered (t :: ts)) (h : s ∈ places joined ts) :
    t.span.stop ≤ s.start := by
  obtain ⟨u, hu, hstart, -⟩ := mem_places h
  rw [← hstart]
  exact rel_of_pairwise_cons hts.pairwise hu

lemma count_places_le_one (hts : Ordered ts) (hs : s.start < s.stop) :
    (places joined ts).count s ≤ 1 := by
  induction ts generalizing joined with
  | nil => exact Nat.zero_le 1
  | cons t ts ih =>
    have hfirst {r : Span} (hr : r.start = t.span.start) (hroom : s = r → t.span.start < t.span.stop) :
        (r :: places (t.lexeme.isQuote) ts).count s ≤ 1 := by
      rw [count_cons]
      split
      · next heq =>
        obtain rfl : r = s := by simpa using heq
        have hlt := hroom rfl
        have hnone : (places t.lexeme.isQuote ts).count r = 0 := by
          rw [count_eq_zero]
          intro hmem
          have hle := stop_le_of_mem_places hts hmem
          rw [hr] at hle
          exact absurd hlt (not_lt.mpr hle)
        omega
      · exact ih hts.tail
    rw [places]
    cases hq : t.lexeme.isQuote with
    | true =>
      rw [hq] at hfirst
      cases joined with
      | true => exact ih hts.tail
      | false => exact hfirst rfl fun _ => hts.lt t mem_cons_self hq
    | false =>
      rw [hq] at hfirst
      exact hfirst rfl fun h => by rw [← h]; exact hs

lemma stop_le_rowEnd (hts : Ordered (t :: ts)) : t.span.stop ≤ rowEnd t ts := by
  induction ts generalizing t with
  | nil => exact le_refl _
  | cons u ts ih =>
    rw [rowEnd]
    split
    · calc t.span.stop ≤ u.span.start := rel_of_pairwise_cons hts.pairwise mem_cons_self
        _ ≤ u.span.stop := hts.tail.le u mem_cons_self
        _ ≤ rowEnd u ts := ih hts.tail
    · exact le_refl _

lemma stop_lt_rowEnd (hts : Ordered (t :: u :: ts)) (hu : u.lexeme.isQuote) :
    t.span.stop < rowEnd t (u :: ts) := by
  rw [rowEnd, if_pos hu]
  calc t.span.stop ≤ u.span.start := rel_of_pairwise_cons hts.pairwise mem_cons_self
    _ < u.span.stop := hts.tail.lt u mem_cons_self hu
    _ ≤ rowEnd u ts := stop_le_rowEnd hts.tail

lemma mem_places_tail {v : Token} (hts : Ordered (t :: ts)) (hv : v ∈ ts)
    (hroom : v.span.start < v.span.stop) (h : v.span ∈ places joined (t :: ts)) :
    v.span ∈ places t.lexeme.isQuote ts := by
  have hbehind : t.span.stop ≤ v.span.start := rel_of_pairwise_cons hts.pairwise hv
  rw [places] at h
  cases hq : t.lexeme.isQuote with
  | true =>
    have hlt := hts.lt t mem_cons_self hq
    rw [if_pos hq] at h
    cases joined with
    | true => exact h
    | false =>
      obtain heq | h := mem_cons.mp h
      · have hstart : v.span.start = t.span.start := by rw [heq]
        rw [hstart] at hbehind
        exact absurd hlt (not_lt.mpr hbehind)
      · exact h
  | false =>
    rw [hq, if_neg Bool.false_ne_true] at h
    obtain heq | h := mem_cons.mp h
    · rw [← heq] at hbehind
      exact absurd hroom (not_lt.mpr hbehind)
    · exact h

/-- A change is made to lone literals if it is made at places of literals, each of which is the place
of a single token. -/
lemma lone_of_places {joined : Bool} {ts : List Token} (hts : Ordered ts)
    (hfits : ∀ t ∈ ts, t.Fits σ)
    (hplaces : ∀ t ∈ ts, σ t.span ≠ none → t.span ∈ places joined ts)
    (hstart : ∀ t ∈ ts, t.lexeme.isQuote → ∀ s, σ s ≠ none → s.start = t.span.start → s = t.span) :
    Lone σ ts := by
  induction ts generalizing joined with
  | nil => trivial
  | cons t ts ih =>
    have htail : ∀ v ∈ ts, σ v.span ≠ none → v.span ∈ places t.lexeme.isQuote ts := by
      intro v hv hσ
      have hmem := mem_cons_of_mem t hv
      obtain ⟨w, hw⟩ := Option.ne_none_iff_exists'.mp hσ
      obtain ⟨-, b, hb, -⟩ := hfits v hmem w hw
      have hroom := hts.lt v hmem (by rw [hb]; rfl)
      exact mem_places_tail hts hv hroom (hplaces v hmem hσ)
    refine ⟨hfits t mem_cons_self, fun u hu htq huq => ?_, ?_⟩
    · obtain ⟨ts, rfl⟩ := head?_eq_some_iff.mp hu
      have hrow := stop_lt_rowEnd hts huq
      have hu' : u ∈ u :: ts := mem_cons_self
      refine ⟨?_, ?_, ?_⟩
      · by_contra hσ
        have hmem := hplaces t mem_cons_self hσ
        have hlt := hts.lt t mem_cons_self htq
        have hlater (h : t.span ∈ places true (u :: ts)) : False :=
          absurd hlt (not_lt.mpr (stop_le_of_mem_places hts h))
        rw [places, if_pos htq] at hmem
        cases joined with
        | true => exact hlater hmem
        | false =>
          obtain heq | hmem := mem_cons.mp hmem
          · exact hrow.ne (congrArg Span.stop heq)
          · exact hlater hmem
      · by_contra hσ
        have hmem := htail u hu' hσ
        rw [htq, places, if_pos huq] at hmem
        have hle := stop_le_of_mem_places hts.tail hmem
        exact absurd (hts.tail.lt u hu' huq) (not_lt.mpr hle)
      · by_contra hσ
        have heq := hstart t mem_cons_self htq _ hσ rfl
        have hstop := congrArg Span.stop heq
        exact absurd hstop hrow.ne'
    · exact ih hts.tail (fun v hv => hfits v (mem_cons_of_mem t hv)) htail
        fun v hv => hstart v (mem_cons_of_mem t hv)

end Places

end AssetCatalog.Source
