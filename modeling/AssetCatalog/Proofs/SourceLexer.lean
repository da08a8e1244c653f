import AssetCatalog.Proofs.Fault
import AssetCatalog.Proofs.SourceReader
import AssetCatalog.Proofs.Text

/-!
# Pieces of source

What the lexer reads in one step does not depend on what stands behind a quote.
-/

namespace AssetCatalog.Source.Token

open List Option

variable {column narrow : Nat} {d : Char}
variable {x : Char} {l : Layout} {a b cs more w : List Char} {n : Nat} {p : Piece} {q : Quote}

def isQuoteChar (c : Char) : Bool := c = '\'' || c = '"'

lemma le_of_indentation {last : Bool} {first size : Nat} {i : Nat × Nat × Nat}
    (h : indentation last column narrow first size cs = .ok i) : i.2.2 ≤ size + cs.length := by
  fun_induction indentation last column narrow first size cs with
  | case1 column narrow first size cs ih | case2 column narrow first size cs ih
  | case3 column narrow first size cs ih =>
    have := ih h
    rw [length_cons]
    omega
  | case4 | case6 => cases h
  | case5 column narrow first size cs _ ih =>
    have := ih h
    rw [length_cons, length_cons]
    omega
  | case7 =>
    cases h
    split <;> exact Nat.le_add_right _ _

variable {c : Char} (hc : isQuoteChar c = true)

include hc

lemma eq_of_isQuoteChar : c = '\'' ∨ c = '"' := by simpa [isQuoteChar] using hc

lemma ne_of_isQuoteChar (hd : isQuoteChar d = false) : c ≠ d := by
  rintro rfl
  rw [hc] at hd
  cases hd

lemma margin_stops (a b : List Char) : (a ++ c :: b).takeWhile isMargin = a.takeWhile isMargin ∧
    (a.takeWhile isMargin).length ≠ (a ++ c :: b).length := by
  have hmargin : isMargin c = false := by
    rcases eq_of_isQuoteChar hc with rfl | rfl <;> decide
  refine ⟨Text.takeWhile_append_cons hmargin a b, ?_⟩
  have := ( takeWhile_prefix (l := a) isMargin).length_le
  rw [length_append, length_cons]
  omega

lemma namePiece_local (l : Layout) (a b : List Char) :
    namePiece l (a ++ c :: b) = namePiece l (a ++ [c]) := by
  have hpart : isNamePart c = false := by
    rcases eq_of_isQuoteChar hc with rfl | rfl <;> decide
  simp only [namePiece, Text.takeWhile_append_cons hpart]

lemma operatorPiece_local (l : Layout) (a b : List Char) :
    operatorPiece l (a ++ c :: b) = operatorPiece l (a ++ [c]) := by
  have hall : ∀ o ∈ operators, c ∉ o.toList := by
    rcases eq_of_isQuoteChar hc with rfl | rfl <;> decide
  have hfind : (operators.find? fun o => o.toList.isPrefixOf (a ++ c :: b)) =
      operators.find? fun o => o.toList.isPrefixOf (a ++ [c]) := by
    refine find?_congr fun o ho => ?_
    rw [Text.isPrefixOf_append_cons (hall o ho), Text.isPrefixOf_append_cons (hall o ho)]
  rw [operatorPiece, operatorPiece, hfind]

lemma quoteMarks_cons (fuel : Nat) (q : Quote) (b : List Char) :
    quoteMarks (fuel + 1) q (c :: b) = some (q, 0) := by
  have h : (c = '\'' || c = '"' : Bool) := hc
  rw [quoteMarks, if_pos h]

lemma quoteMarks_local (fuel : Nat) (q : Quote) (a b : List Char) :
    quoteMarks fuel q (a ++ c :: b) = quoteMarks fuel q (a ++ [c]) := by
  induction fuel generalizing q a with
  | zero => rfl
  | succ fuel ih =>
    cases a with
    | nil => rw [nil_append, nil_append, quoteMarks_cons hc, quoteMarks_cons hc]
    | cons x a => simp only [cons_append, quoteMarks, ih]

lemma le_of_quoteMarks {fuel : Nat} {r : Quote} (h : quoteMarks fuel q (a ++ [c]) = some (r, n)) :
    n ≤ a.length := by
  induction fuel generalizing q n a with
  | zero => cases h
  | succ fuel ih =>
    cases a with
    | nil =>
      rw [nil_append, quoteMarks_cons hc] at h
      cases h
      exact Nat.le_refl 0
    | cons x a =>
      have hnext {q : Quote} (h : (quoteMarks fuel q (a ++ [c])).map (fun p => (p.1, p.2 + 1)) =
          some (r, n)) : n ≤ (x :: a).length := by
        obtain ⟨⟨_, m⟩, hm, hr⟩ := map_eq_some_iff.mp h
        obtain ⟨rfl, rfl⟩ := Prod.mk.inj hr
        exact Nat.succ_le_succ (ih hm)
      simp only [cons_append, quoteMarks] at h
      split at h
      · cases h
        exact Nat.zero_le _
      split at h
      · exact hnext h
      split at h
      · exact hnext h
      split at h
      · exact hnext h
      split at h
      · exact hnext h
      · cases h

omit hc in
lemma quoteBody_cons (hx : x ≠ '\\') (quote : Char) (long : Bool) (cs : List Char) :
    quoteBody quote long (x :: cs) =
      if x = quote && (!long || [quote, quote].isPrefixOf cs) then some 0
      else if x = '\n' && !long then none
      else (quoteBody quote long cs).map (· + 1) := by
  rw [quoteBody] <;> simp [hx]

omit hc in
lemma isPrefixOf_pair (d : Char) (ha : a ≠ []) (b : List Char) :
    [d, d].isPrefixOf (a ++ c :: b) = [d, d].isPrefixOf (a ++ [c]) := by
  match a with
  | [x] => simp [List.isPrefixOf]
  | x :: y :: a => simp [List.isPrefixOf]

def quoteSize (long : Bool) : Nat := if long then 3 else 1

omit hc in
lemma quoteBody_local {long : Bool} (h : quoteBody d long (a ++ c :: b) = some n)
    (hn : n + quoteSize long ≤ a.length) (b' : List Char) :
    quoteBody d long (a ++ c :: b') = some n := by
  have hsize : 1 ≤ quoteSize long := by cases long <;> decide
  induction ha : a.length using Nat.strong_induction_on generalizing a n with
  | _ k ih =>
    cases a with
    | nil =>
      simp only [length_nil] at hn
      omega
    | cons x a =>
      simp only [length_cons] at ha hn
      by_cases hx : x = '\\'
      · subst hx
        cases a with
        | nil =>
          obtain ⟨m, -, rfl⟩ := map_eq_some_iff.mp
            (show (quoteBody d long b).map (· + 2) = some n from h)
          simp only [length_nil] at hn
          omega
        | cons y a =>
          obtain ⟨m, hm, rfl⟩ := map_eq_some_iff.mp
            (show (quoteBody d long (a ++ c :: b)).map (· + 2) = some n from h)
          simp only [length_cons] at ha hn
          have hmore := ih a.length (by omega) hm (by omega) rfl
          exact congrArg (Option.map (· + 2)) hmore
      · have hpair : (!long || [d, d].isPrefixOf (a ++ c :: b)) =
            (!long || [d, d].isPrefixOf (a ++ c :: b')) := by
          cases long with
          | false => rfl
          | true =>
            have hne : a ≠ [] := by
              rintro rfl
              simp [quoteSize] at hn
            rw [isPrefixOf_pair d hne b, isPrefixOf_pair d hne b']
        rw [cons_append, quoteBody_cons hx, hpair] at h
        rw [cons_append, quoteBody_cons hx]
        split at h
        · next hclose => rw [if_pos hclose, h]
        · next hclose =>
          rw [if_neg hclose]
          split at h
          · cases h
          · next hline =>
            rw [if_neg hline]
            obtain ⟨m, hm, rfl⟩ := map_eq_some_iff.mp h
            exact congrArg (Option.map (· + 1)) (ih a.length (by omega) hm (by omega) rfl)

omit hc in
lemma quotePiece_eq (l : Layout) (q : Quote) (marks : Nat) (hd : cs.drop marks = d :: more) :
    quotePiece l cs q marks =
      let long := [d, d].isPrefixOf more
      let inner := cs.drop (marks + quoteSize long)
      match quoteBody d long inner with
      | some n => pure
          { size := marks + quoteSize long + n + quoteSize long
            token := Lexeme.quote { q with marked := q.marked && cs.head? = some 'u', body := inner.take n }
            layout := l }
      | none => throw .source := by
  rw [quotePiece, hd]
  rfl

omit hc in
lemma quotePiece_local {marks : Nat} (hmarks : marks ≤ a.length)
    (h : quotePiece l (a ++ c :: b) q marks = .ok p) (hp : p.size ≤ a.length) (b' : List Char) :
    quotePiece l (a ++ c :: b') q marks = .ok p := by
  have hdrop (b : List Char) : (a ++ c :: b).drop marks = a.drop marks ++ c :: b :=
    drop_append_of_le_length hmarks
  cases hfirst : a.drop marks with
  | nil =>
    rw [quotePiece_eq l q marks (show _ = c :: b by rw [hdrop, hfirst]; rfl)] at h
    dsimp only at h
    split at h
    · cases h
      have hlen := congrArg List.length hfirst
      simp only [length_drop, length_nil, quoteSize] at hlen hp
      split at hp <;> omega
    · cases h
  | cons d more =>
    have hmore (b : List Char) : (a ++ c :: b).drop marks = d :: (more ++ c :: b) := by
      rw [hdrop, hfirst, cons_append]
    rw [quotePiece_eq l q marks (hmore b)] at h
    rw [quotePiece_eq l q marks (hmore b')]
    have hlen := congrArg List.length hfirst
    simp only [length_drop, length_cons] at hlen
    dsimp only at h ⊢
    split at h
    · next n hbody =>
      cases h
      dsimp only at hp
      have hne : more ≠ [] := by
        rintro rfl
        simp only [length_nil, quoteSize] at hlen hp
        split at hp <;> omega
      have hpair : [d, d].isPrefixOf (more ++ c :: b) = [d, d].isPrefixOf (more ++ c :: b') := by
        rw [isPrefixOf_pair d hne b, isPrefixOf_pair d hne b']
      rw [hpair] at hbody hp ⊢
      have hinner (b : List Char) :
          (a ++ c :: b).drop (marks + quoteSize ([d, d].isPrefixOf (more ++ c :: b'))) =
            a.drop (marks + quoteSize ([d, d].isPrefixOf (more ++ c :: b'))) ++ c :: b :=
        drop_append_of_le_length (by omega)
      rw [hinner] at hbody ⊢
      have hn : n + quoteSize ([d, d].isPrefixOf (more ++ c :: b')) ≤
          (a.drop (marks + quoteSize ([d, d].isPrefixOf (more ++ c :: b')))).length := by
        rw [length_drop]
        omega
      have hhead : (a ++ c :: b).head? = (a ++ c :: b').head? := by
        cases a <;> rfl
      have hbody' := Nat.le_trans (Nat.le_add_right _ _) hn
      simp only [quoteBody_local hbody hn b', hinner, hhead, take_append_of_le_length hbody']
      rfl
    · cases h

lemma comment_local (h : comment (a ++ c :: b) ≤ a.length) (b' : List Char) :
    comment (a ++ c :: b') = comment (a ++ c :: b) := by
  have hne : c ≠ '\n' := ne_of_isQuoteChar hc rfl
  by_cases ha : '\n' ∈ a
  · have htake (b : List Char) : (a ++ c :: b).takeWhile (· ≠ '\n') = a.takeWhile (· ≠ '\n') := by
      rw [takeWhile_append, if_neg]
      intro hlen
      have hall := takeWhile_eq_self_iff.mp (( takeWhile_prefix _).eq_of_length hlen)
      exact absurd (hall _ ha) (by decide)
    rw [comment, comment, htake, htake]
  · have hall : ∀ x ∈ a, decide (x ≠ '\n') := fun x hx => by
      simp only [decide_eq_true_eq]
      rintro rfl
      exact ha hx
    rw [comment, takeWhile_append_of_pos hall, length_append, takeWhile_cons,
      if_pos (by simpa using hne), length_cons] at h
    omega

omit hc in
lemma linePiece_eq (l : Layout)
    (hi : indentation ((cs.takeWhile isMargin).length = cs.length) 0 0 0 0 (cs.takeWhile isMargin) =
      .ok (column, narrow, n)) :
    linePiece l cs =
      if (cs.drop n).head? = some '\n' then pure { size := n + 1, layout := l }
      else if (cs.drop n).head? = some '#' then pure { size := n + comment (cs.drop n) + 1, layout := l }
      else indentPiece l column narrow n := by
  rw [linePiece]
  dsimp only
  rw [hi, except_ok_bind]
  dsimp only
  split
  · next hd => simp [hd]
  · next more hd => simp [hd]
  · next hline hcomment =>
    rw [if_neg, if_neg]
    · intro hd
      obtain ⟨more, hmore⟩ := head?_eq_some_iff.mp hd
      exact hcomment more hmore
    · intro hd
      obtain ⟨more, hmore⟩ := head?_eq_some_iff.mp hd
      exact hline more hmore

lemma linePiece_local (h : linePiece l (a ++ c :: b) = .ok p) (hp : p.size ≤ a.length)
    (b' : List Char) : linePiece l (a ++ c :: b') = .ok p := by
  obtain ⟨⟨column, narrow, n⟩, hi, -⟩ := except_bind_eq_ok.mp h
  have hi' : indentation (((a ++ c :: b').takeWhile isMargin).length = (a ++ c :: b').length) 0 0 0 0
      ((a ++ c :: b').takeWhile isMargin) = .ok (column, narrow, n) := by
    simpa only [margin_stops hc, decide_false] using hi
  have hn : n ≤ a.length := by
    rw [(margin_stops hc a b).1] at hi
    have hle := le_of_indentation hi
    rw [Nat.zero_add] at hle
    exact hle.trans ( takeWhile_prefix _).length_le
  have hdrop (b : List Char) : (a ++ c :: b).drop n = a.drop n ++ c :: b :=
    drop_append_of_le_length hn
  have hhead : (a.drop n ++ c :: b').head? = (a.drop n ++ c :: b).head? := by
    cases a.drop n <;> rfl
  rw [linePiece_eq l hi, hdrop] at h
  rw [linePiece_eq l hi', hdrop, hhead]
  split at h
  · next hline => rw [if_pos hline, h]
  · next hline =>
    rw [if_neg hline]
    split at h
    · next hcomment =>
      rw [if_pos hcomment]
      cases h
      dsimp only at hp
      have hle : comment (a.drop n ++ c :: b) ≤ (a.drop n).length := by
        rw [length_drop]
        omega
      rw [comment_local hc hle b']
      rfl
    · next hcomment => rw [if_neg hcomment, h]

omit hc in
lemma nextPiece_cons (hl : (l.fresh && l.brackets.isEmpty) = false) (x : Char) (more : List Char) :
    nextPiece l (x :: more) = inlinePiece l x more := if_neg (ne_true_of_eq_false hl)

/-- What is read in front of a quote does not depend on what stands behind the quote. -/
lemma nextPiece_local (h : nextPiece l (a ++ c :: b) = .ok p) (hp : p.size ≤ a.length)
    (b' : List Char) : nextPiece l (a ++ c :: b') = .ok p := by
  cases hl : l.fresh && l.brackets.isEmpty with
  | true =>
    unfold nextPiece at h ⊢
    rw [if_pos hl] at h ⊢
    exact linePiece_local hc h hp b'
  | false =>
    have hquote {q : Quote} {n : Nat} (hq : quoteMarks 3 { body := [] } (a ++ [c]) = some (q, n))
        (h : quotePiece l (a ++ c :: b) q n = .ok p) : quotePiece l (a ++ c :: b') q n = .ok p :=
      quotePiece_local (le_of_quoteMarks hc hq) h hp b'
    have hmarks (b : List Char) := quoteMarks_local hc 3 { body := [] } a b
    cases a with
    | nil =>
      have hne : c ≠ ' ' ∧ c ≠ '\t' ∧ c ≠ '\x0c' ∧ c ≠ '#' ∧ c ≠ '\n' ∧ c ≠ '\\' := by
        rcases eq_of_isQuoteChar hc with rfl | rfl <;> decide
      rw [nil_append, nextPiece_cons hl] at h ⊢
      unfold inlinePiece at h ⊢
      simp only [hne, decide_false, Bool.or_self,
        Bool.false_eq_true, if_false, quoteMarks_cons hc] at h ⊢
      exact hquote (quoteMarks_cons hc 2 _ []) h
    | cons x a =>
      simp only [cons_append] at h hmarks hquote ⊢
      rw [nextPiece_cons hl] at h ⊢
      unfold inlinePiece at h ⊢
      dsimp only at h ⊢
      split at h
      · next hblank => rw [if_pos hblank, h]
      next hblank =>
      rw [if_neg hblank]
      split at h
      · next hcomment =>
        cases h
        rw [if_pos hcomment, ← cons_append, comment_local hc hp b']
        rfl
      next hcomment =>
      rw [if_neg hcomment]
      split at h
      · next hline => rw [if_pos hline, h]
      next hline =>
      rw [if_neg hline]
      split at h
      · next hslash =>
        rw [if_pos hslash]
        have hne : c ≠ '\n' := ne_of_isQuoteChar hc rfl
        cases a with
        | nil => simp [hne] at h
        | cons y a =>
          by_cases hy : y = '\n'
          · subst hy
            cases a <;> exact h
          · simp [hy] at h
      next hslash =>
      rw [if_neg hslash]
      rw [hmarks] at h ⊢
      split at h
      · next q n hq => exact hquote hq h
      next hq =>
      have hhead : (a ++ c :: b').head? = (a ++ c :: b).head? := by
        cases a <;> rfl
      have hpart : isNumberPart c = false := by
        rcases eq_of_isQuoteChar hc with rfl | rfl <;> decide
      have hnumber := Text.takeWhile_append_cons hpart (x :: a)
      have hname := namePiece_local hc l (x :: a)
      have hoperator := operatorPiece_local hc l (x :: a)
      simp only [cons_append] at hnumber hname hoperator
      rw [hname, hnumber, hoperator] at h
      rw [hname, hnumber, hoperator, hhead, h]

/-! ## Literals -/

def literal (quote : Char) (long : Bool) (body : List Char) : List Char :=
  List.replicate (quoteSize long) quote ++ body ++ List.replicate (quoteSize long) quote

omit hc in
lemma mem_literal {quote : Char} {long : Bool} {body : List Char} :
    x ∈ literal quote long body ↔ x = quote ∨ x ∈ body := by
  cases long <;> simp [literal, quoteSize] <;> tauto

/-- Characters that stand for themselves between quotes. -/
def Plain (quote : Char) (body : List Char) : Prop :=
  body ≠ [] ∧ quote ∉ body ∧ '\\' ∉ body ∧ '\n' ∉ body

instance (quote : Char) (body : List Char) : Decidable (Plain quote body) := by
  unfold Plain
  infer_instance

lemma quoteBody_literal (long : Bool) (hquote : c ∉ w) (hslash : '\\' ∉ w) (hline : '\n' ∉ w)
    (post : List Char) :
    quoteBody c long (w ++ List.replicate (quoteSize long) c ++ post) = some w.length := by
  have hne : c ≠ '\\' := ne_of_isQuoteChar hc rfl
  induction w with
  | nil =>
    cases long <;>
      simp [quoteSize, replicate_succ, quoteBody_cons hne, List.isPrefixOf]
  | cons x w ih =>
    simp only [mem_cons, not_or] at hquote hslash hline
    have hx : x ≠ c := Ne.symm hquote.1
    have hxn : x ≠ '\n' := Ne.symm hline.1
    rw [cons_append, cons_append, quoteBody_cons (Ne.symm hslash.1), ih hquote.2 hslash.2 hline.2]
    simp [hx, hxn]

lemma quotePiece_literal (l : Layout) (hq : q.marked = false) (long : Bool) (hw : Plain c w)
    (post : List Char) :
    quotePiece l (literal c long w ++ post) q 0 = .ok
      { size := (literal c long w).length
        token := some (.quote { q with body := w })
        layout := l } := by
  obtain ⟨hne, hquote, hslash, hline⟩ := hw
  obtain ⟨x, w, rfl⟩ := exists_cons_of_ne_nil hne
  have hx : x ≠ c := fun h => hquote (h ▸ mem_cons_self)
  have hbody := quoteBody_literal hc long hquote hslash hline post
  have hinner : (literal c long (x :: w) ++ post).drop (0 + quoteSize long) =
      x :: w ++ List.replicate (quoteSize long) c ++ post := by
    simp [literal]
  obtain ⟨more, hmore, hlong⟩ : ∃ more, literal c long (x :: w) ++ post = c :: more ∧
      [c, c].isPrefixOf more = long := by
    cases long <;> refine ⟨_, rfl, ?_⟩ <;> simp [List.isPrefixOf, hx.symm]
  rw [quotePiece_eq l q 0 hmore]
  simp only [hlong, hinner, hbody, hq, Bool.false_and]
  have hsize : 0 + quoteSize long + (x :: w).length + quoteSize long = (literal c long (x :: w)).length := by
    simp only [literal, length_append, length_replicate]
    omega
  have htake : (x :: w ++ List.replicate (quoteSize long) c ++ post).take (x :: w).length = x :: w := by
    rw [append_assoc, take_left]
  rw [hsize, htake, ← hq]
  rfl

lemma nextPiece_quote_fresh (hl : (l.fresh && l.brackets.isEmpty)) (b : List Char) :
    nextPiece l (c :: b) = indentPiece l 0 0 0 := by
  have hne : c ≠ ' ' ∧ c ≠ '\t' ∧ c ≠ '\x0c' ∧ c ≠ '\\' ∧ c ≠ '\n' ∧ c ≠ '#' := by
    rcases eq_of_isQuoteChar hc with rfl | rfl <;> decide
  obtain ⟨hblank, htab, hfeed, hslash, hline, hcomment⟩ := hne
  have hi : indentation (((c :: b).takeWhile isMargin).length = (c :: b).length) 0 0 0 0
      ((c :: b).takeWhile isMargin) = .ok (0, 0, 0) := by
    simp [isMargin, hblank, htab, hfeed, hslash, hline, indentation, pure, Except.pure]
  unfold nextPiece
  rw [if_pos hl, linePiece_eq l hi]
  simp [hline, hcomment]

lemma nextPiece_literal (hl : (l.fresh && l.brackets.isEmpty) = false) (long : Bool)
    (hw : Plain c w) (post : List Char) :
    nextPiece l (literal c long w ++ post) = .ok
      { size := (literal c long w).length, token := some (.quote { body := w }), layout := l } := by
  have hne : c ≠ ' ' ∧ c ≠ '\t' ∧ c ≠ '\x0c' ∧ c ≠ '#' ∧ c ≠ '\n' ∧ c ≠ '\\' := by
    rcases eq_of_isQuoteChar hc with rfl | rfl <;> decide
  obtain ⟨more, hmore⟩ : ∃ more, literal c long w ++ post = c :: more := by
    cases long <;> exact ⟨_, rfl⟩
  have hpiece := quotePiece_literal hc l (q := { body := [] }) rfl long hw post
  rw [hmore] at hpiece ⊢
  rw [nextPiece_cons hl]
  unfold inlinePiece
  simp only [hne, decide_false, Bool.or_self, Bool.false_eq_true, if_false, quoteMarks_cons hc]
  exact hpiece

/-! ## Progress -/

omit hc

/-- A piece that passes over characters, or is the start of a line. -/
def Piece.Moves (l : Layout) (p : Piece) : Prop :=
  0 < p.size ∨ l.fresh = true ∧ p.layout.fresh = false ∧ p.token = none

/-- A piece that moves or changes nothing, and whose blocks are no literals. -/
structure Piece.Sound (l : Layout) (p : Piece) : Prop where
  moves : p.Moves l ∨ p.layout = l
  blocks : ∀ b ∈ p.blocks, b.isQuote = false

lemma indentPiece_spec (h : indentPiece l column narrow n = .ok p) :
    p.size = n ∧ p.token = none ∧ p.layout.fresh = false ∧ ∀ b ∈ p.blocks, b.isQuote = false := by
  unfold indentPiece at h
  dsimp only at h
  split at h
  · split at h
    · cases h
    · cases h
      exact ⟨rfl, rfl, rfl, by simp [Lexeme.isQuote]⟩
  · obtain ⟨⟨indents, closed⟩, -, h⟩ := except_bind_eq_ok.mp h
    cases h
    refine ⟨rfl, rfl, rfl, fun b hb => ?_⟩
    rw [eq_of_mem_replicate hb]
    rfl

lemma namePiece_sound (h : namePiece l cs = .ok p) : p.Sound l := by
  unfold namePiece at h
  dsimp only at h
  split at h
  · cases h
    exact ⟨.inr rfl, by simp⟩
  · split at h
    · cases h
      exact ⟨.inr rfl, by simp⟩
    · cases h

lemma operatorPiece_sound (h : operatorPiece l cs = .ok p) : p.Sound l := by
  have hall : ∀ o ∈ operators, 0 < o.length := by decide
  unfold operatorPiece at h
  split at h
  · cases h
  · next o ho =>
    obtain ⟨brackets, -, h⟩ := except_bind_eq_ok.mp h
    cases h
    exact ⟨.inl (.inl (hall o (mem_of_find?_eq_some ho))), by simp⟩

lemma quotePiece_sound {marks : Nat} (h : quotePiece l cs q marks = .ok p) : p.Sound l := by
  unfold quotePiece at h
  split at h
  · dsimp only at h
    split at h
    · cases h
      exact ⟨.inr rfl, by simp⟩
    · cases h
  · cases h

lemma nextPiece_sound (hcs : cs ≠ []) (h : nextPiece l cs = .ok p) : p.Sound l := by
  cases hl : l.fresh && l.brackets.isEmpty with
  | true =>
    have hfresh : l.fresh := by
      rw [Bool.and_eq_true] at hl
      exact hl.1
    unfold nextPiece at h
    rw [if_pos hl] at h
    obtain ⟨⟨column, narrow, n⟩, hi, -⟩ := except_bind_eq_ok.mp h
    rw [linePiece_eq l hi] at h
    split at h
    · cases h
      exact ⟨.inl (.inl (Nat.succ_pos _)), by simp⟩
    split at h
    · cases h
      exact ⟨.inl (.inl (Nat.succ_pos _)), by simp⟩
    · obtain ⟨-, htoken, hstale, hblocks⟩ := indentPiece_spec h
      exact ⟨.inl (.inr ⟨hfresh, hstale, htoken⟩), hblocks⟩
  | false =>
    obtain ⟨x, more, rfl⟩ := exists_cons_of_ne_nil hcs
    rw [nextPiece_cons hl] at h
    unfold inlinePiece at h
    dsimp only at h
    split at h
    · cases h
      exact ⟨.inr rfl, by simp⟩
    split at h
    · cases h
      exact ⟨.inr rfl, by simp⟩
    split at h
    · cases h
      split
      · exact ⟨.inl (.inl Nat.one_pos), by simp⟩
      · exact ⟨.inl (.inl Nat.one_pos), by simp⟩
    split at h
    · split at h
      · cases h
        exact ⟨.inr rfl, by simp⟩
      · cases h
    split at h
    · exact quotePiece_sound h
    split at h
    · exact namePiece_sound h
    split at h
    · obtain ⟨⟨n, v⟩, -, h⟩ := except_bind_eq_ok.mp h
      cases h
      exact ⟨.inr rfl, by simp⟩
    · exact operatorPiece_sound h

end AssetCatalog.Source.Token
