import AssetCatalog.Proofs.SourceReader

/-! The grammar of expressions does not look at places. -/

namespace AssetCatalog.Source

open Located Reader List

variable {x : Reader Expr}

section Trees

variable (σ : Change)

@[simp] lemma Grammar.tupleOr_forget (items : List Expr × Bool) :
    tupleOr (forget σ items) = (tupleOr items).forget σ := by
  rcases items with ⟨_ | ⟨e, _ | ⟨e', es⟩⟩, _ | _⟩ <;> simp [tupleOr]

@[simp] lemma Grammar.spans_tupleOr (items : List Expr × Bool) :
    (tupleOr items).spans = items.1.flatMap Expr.spans := by
  rcases items with ⟨_ | ⟨e, _ | ⟨e', es⟩⟩, _ | _⟩ <;> simp [tupleOr]

mutual

theorem Expr.isTarget_forget (e : Expr) : (e.forget σ).isTarget = e.isTarget := by
  cases e with
  | tuple es => simpa [Expr.isTarget] using allTargets_forget es
  | list es => simpa [Expr.isTarget] using allTargets_forget es
  | starred e => simpa [Expr.isTarget] using Expr.isPlainTarget_forget e
  | _ => rfl

theorem allTargets_forget (es : List Expr) : allTargets (es.map (Expr.forget σ)) = allTargets es := by
  cases es with
  | nil => rfl
  | cons e es => simp [allTargets, Expr.isTarget_forget e, allTargets_forget es]

theorem Expr.isPlainTarget_forget (e : Expr) : (e.forget σ).isPlainTarget = e.isPlainTarget := by
  cases e with
  | tuple es => simpa [Expr.isPlainTarget] using allTargets_forget es
  | list es => simpa [Expr.isPlainTarget] using allTargets_forget es
  | _ => rfl

end

@[simp] lemma Grammar.isStarred_forget (e : Expr) : isStarred (e.forget σ) = isStarred e := by
  cases e <;> rfl

@[simp] lemma Grammar.isAssigned_forget (e : Expr) : isAssigned (e.forget σ) = isAssigned e := by
  cases e <;> rfl

end Trees

instance : Located Grammar.Arguments where
  forget σ a := { a with positional := forget σ a.positional, keywords := forget σ a.keywords }
  spans a := spans a.positional ++ spans a.keywords

instance : Located Grammar.ParameterList where
  forget σ ps := { ps with
    positional := forget σ ps.positional
    regular := forget σ ps.regular
    rest := forget σ ps.rest
    keyword := forget σ ps.keyword
    others := forget σ ps.others }
  spans ps := spans ps.positional ++ spans ps.regular ++ spans ps.rest ++ spans ps.keyword ++
    spans ps.others

section Records

@[simp] lemma Located.forget_arguments (σ : Change) (a : Grammar.Arguments) :
    forget σ a = { a with positional := forget σ a.positional, keywords := forget σ a.keywords } := rfl

@[simp] lemma Located.spans_arguments (a : Grammar.Arguments) :
    spans a = spans a.positional ++ spans a.keywords := rfl

@[simp] lemma Located.forget_parameterList (σ : Change) (ps : Grammar.ParameterList) :
    forget σ ps = { ps with
      positional := forget σ ps.positional
      regular := forget σ ps.regular
      rest := forget σ ps.rest
      keyword := forget σ ps.keyword
      others := forget σ ps.others } := rfl

@[simp] lemma Located.spans_parameterList (ps : Grammar.ParameterList) :
    spans ps = spans ps.positional ++ spans ps.regular ++ spans ps.rest ++ spans ps.keyword ++
      spans ps.others := rfl

end Records

/-- The rules of a grammar read tokens after a change as they read the tokens. -/
structure Grammar.Steady (σ : Change) (s : Span) (g : Grammar) : Prop where
  expression : ∀ {P n}, Mirrored σ s P n g.expression
  disjunction : ∀ {P n}, Mirrored σ s P n g.disjunction
  bitOr : ∀ {P n}, Mirrored σ s P n g.bitOr

variable {σ : Change} {s : Span} {P : List Token → Prop} {n : Nat}

section Rows

variable {ts : List Token} {t : Token}
variable (g : Grammar)

def row : List Token → List (Quote × Span)
  | [] => []
  | t :: ts =>
    match t.lexeme with
    | .quote q => (q, t.span) :: row ts
    | _ => []

def afterRow (ts : List Token) : List Token := ts.dropWhile (·.lexeme.isQuote)

def rowItem : Reader (Option (Quote × Span)) := do
  match ← peek with
  | some (.quote q) =>
    let t ← take
    pure (some (q, t.span))
  | _ => pure none

lemma rowItem_quote (q : Quote) (p : Span) (ts : List Token) :
    rowItem (⟨.quote q, p⟩ :: ts) = some (some (q, p), ts) := rfl

lemma rowItem_of_not_isQuote (ht : t.lexeme.isQuote = false) (ts : List Token) :
    rowItem (t :: ts) = some (none, t :: ts) := by
  obtain ⟨l, p⟩ := t
  cases l <;> first | rfl | simp [Lexeme.isQuote] at ht

lemma row_of_not_isQuote (ht : t.lexeme.isQuote = false) (ts : List Token) :
    row (t :: ts) = [] := by
  obtain ⟨l, p⟩ := t
  cases l <;> first | rfl | simp [Lexeme.isQuote] at ht

lemma exists_quote (ht : t.lexeme.isQuote) : ∃ q p, t = ⟨.quote q, p⟩ := by
  obtain ⟨l, p⟩ := t
  cases l <;> simp_all [Lexeme.isQuote]

lemma repeatFrom_rowItem (fuel : Nat) (items : List (Quote × Span)) (ts : List Token)
    (hf : ts.length < fuel) :
    repeatFrom rowItem fuel items ts = some (items.reverse ++ row ts, afterRow ts) := by
  induction ts generalizing fuel items with
  | nil =>
    obtain ⟨fuel, rfl⟩ : ∃ f, fuel = f + 1 := ⟨fuel - 1, by simp at hf; omega⟩
    simp [row, afterRow]
    rfl
  | cons t ts ih =>
    obtain ⟨fuel, rfl⟩ : ∃ f, fuel = f + 1 := ⟨fuel - 1, by simp at hf; omega⟩
    rw [repeatFrom, bind_apply]
    cases ht : t.lexeme.isQuote with
    | false =>
      rw [rowItem_of_not_isQuote ht, row_of_not_isQuote ht]
      simp [afterRow, ht, pure_apply]
    | true =>
      obtain ⟨q, p, rfl⟩ := exists_quote ht
      have h := ih fuel ((q, p) :: items) (by simpa using hf)
      simpa [rowItem_quote, row, afterRow, Lexeme.isQuote] using h

lemma many_rowItem (ts : List Token) : many rowItem ts = some (row ts, afterRow ts) := by
  rw [many, get_bind_apply, repeatFrom_rowItem _ _ _ (Nat.lt_succ_self _)]
  rfl

lemma getLast?_row (q : Quote) (t : Token) (ts : List Token) :
    (((q, t.span) :: row ts).getLast?.map fun i => i.2.stop) = some (rowEnd t ts) := by
  induction ts generalizing q t with
  | nil => simp [row, rowEnd]
  | cons u ts ih =>
    obtain ⟨l, p⟩ := u
    cases l with
    | quote q' =>
      have := ih q' ⟨.quote q', p⟩
      simpa [row, rowEnd, Lexeme.isQuote] using this
    | _ => simp [row, rowEnd, Lexeme.isQuote]

lemma quotes_apply (q : Quote) (p : Span) (ts : List Token) :
    g.quotes (⟨.quote q, p⟩ :: ts) =
      (g.quotesExpr (q :: (row ts).map (·.1)) ⟨p.start, rowEnd ⟨.quote q, p⟩ ts⟩).map
        fun e => (e, afterRow ts) := by
  obtain ⟨⟨q', p'⟩, hp, hs⟩ := Option.map_eq_some_iff.1 (getLast?_row q ⟨.quote q, p⟩ ts)
  replace hs : p'.stop = rowEnd ⟨.quote q, p⟩ ts := hs
  change (many rowItem >>= _) _ = _
  rw [bind_apply, many_rowItem]
  simp only [row, afterRow, hp, hs, Lexeme.isQuote, Option.bind_some, head?_cons,
    map_cons, dropWhile_cons_of_pos]
  cases g.quotesExpr (q :: (row ts).map (·.1)) ⟨p.start, rowEnd ⟨.quote q, p⟩ ts⟩ <;> rfl

lemma isQuote_forget (ht : t.Fits σ) : (t.forget σ).lexeme.isQuote = t.lexeme.isQuote := by
  cases hv : σ t.span with
  | none => simp [Token.forget, hv]
  | some v =>
    obtain ⟨-, b, hb, -⟩ := ht v hv
    simp [Token.forget, hv, hb, Lexeme.isQuote]

lemma afterRow_forget (hl : Lone σ ts) :
    afterRow (ts.map (Token.forget σ)) = (afterRow ts).map (Token.forget σ) := by
  induction ts with
  | nil => rfl
  | cons t ts ih =>
    cases ht : t.lexeme.isQuote <;>
      simp [afterRow, ht, isQuote_forget hl.1]
    exact ih hl.2.2

lemma lone_afterRow (hl : Lone σ ts) : Lone σ (afterRow ts) := by
  induction ts with
  | nil => exact hl
  | cons t ts ih =>
    cases ht : t.lexeme.isQuote
    · simpa [afterRow, ht] using hl
    · simpa [afterRow, ht] using ih hl.2.2

lemma row_forget (hl : Lone σ (t :: ts)) (ht : t.lexeme.isQuote) :
    (row (ts.map (Token.forget σ))).map (·.1) = (row ts).map (·.1) := by
  induction ts generalizing t with
  | nil => rfl
  | cons u ts ih =>
    cases hu : u.lexeme.isQuote with
    | false => 
      rw [map_cons, row_of_not_isQuote hu, row_of_not_isQuote]
      rw [isQuote_forget hl.2.2.1, hu]
    | true =>
      have hn : σ u.span = none := (hl.2.1 u rfl ht hu).2.1
      have := ih hl.2.2 hu
      obtain ⟨q, p, rfl⟩ := exists_quote hu
      simpa [row, Token.forget, hn] using this

lemma rowEnd_forget (t : Token) (ts : List Token) :
    rowEnd (t.forget σ) (ts.map (Token.forget σ)) = (default : Span).stop := by
  have hd (u : Token) : (u.forget σ).span = default := by
    unfold Token.forget
    split <;> rfl
  induction ts generalizing t with
  | nil => simp [rowEnd, hd]
  | cons u ts ih =>
    rw [map_cons, rowEnd, ih, hd, ite_self]

lemma places_true (ts : List Token) : places true ts = places false (afterRow ts) := by
  induction ts with
  | nil => rfl
  | cons t ts ih =>
    cases ht : t.lexeme.isQuote
    · simp [places, afterRow, ht]
    · simpa [places, afterRow, ht] using ih

lemma quotesExpr_forget (qs : List Quote) {p : Span} (hp : σ p = none) :
    g.quotesExpr qs default = (g.quotesExpr qs p).map (.forget σ) := by
  unfold Grammar.quotesExpr
  split
  · split
    · cases qs.mapM Quote.bytes? <;> simp [Change.value, hp]
    · rfl
  · split
    · cases qs.mapM g.quoteParts <;> simp
    · cases qs.mapM Grammar.plainText <;> simp [Change.value, hp]

lemma spans_quotesExpr {g : Grammar} {qs : List Quote} {p : Span} {e : Expr}
    (he : g.quotesExpr qs p = some e) : e.spans = [p] ∨ e.spans = [] := by
  unfold Grammar.quotesExpr at he
  split at he
  · split at he
    · obtain ⟨bs, -, hb⟩ := Option.bind_eq_some_iff.1 he
      cases hb
      exact .inl (by simp)
    · cases he
  · split at he
    · obtain ⟨ps, -, hb⟩ := Option.bind_eq_some_iff.1 he
      cases hb
      exact .inr (by simp)
    · obtain ⟨ts, -, hb⟩ := Option.bind_eq_some_iff.1 he
      cases hb
      exact .inl (by simp)

lemma unescape_of_not_mem {b : List Char} (hb : '\\' ∉ b) (bytes : Bool) (fuel : Nat)
    (hf : b.length < fuel) : Quote.unescape bytes fuel b = some b := by
  induction b generalizing fuel with
  | nil => 
    obtain ⟨fuel, rfl⟩ : ∃ f, fuel = f + 1 := ⟨fuel - 1, by simp at hf; omega⟩
    rfl
  | cons c b ih =>
    obtain ⟨fuel, rfl⟩ : ∃ f, fuel = f + 1 := ⟨fuel - 1, by simp at hf; omega⟩
    simp only [mem_cons, not_or] at hb
    rw [Quote.unescape, ih hb.2 _ (by simpa using hf)]
    · rfl
    · exact fun h => hb.1 h.symm

lemma quotesExpr_plain {b : List Char} (hb : '\\' ∉ b) (p : Span) :
    g.quotesExpr [{ body := b }] p = some (.constant (.text (String.ofList b)) false p) := by
  have hu := unescape_of_not_mem hb false (b.length + 1) (Nat.lt_succ_self _)
  simp [Grammar.quotesExpr, Grammar.plainText, Quote.chars?, hu]

lemma rowEnd_of_row_eq_nil (h : row ts = []) (t : Token) : rowEnd t ts = t.span.stop := by
  cases ts with
  | nil => rfl
  | cons u ts =>
    refine if_neg fun hu => ?_
    obtain ⟨q, p, rfl⟩ := exists_quote hu
    simp [row] at h

lemma quotes_of_row_eq_nil (h : row ts = []) : g.quotes ts = none := by
  change (many rowItem >>= _) _ = _
  rw [bind_apply, many_rowItem, h]
  rfl

lemma quotes_forget (hl : Lone σ (t :: ts)) (ht : t.lexeme.isQuote) :
    g.quotes ((t :: ts).map (Token.forget σ)) =
      (g.quotes (t :: ts)).map (Prod.map (.forget σ) (List.map (Token.forget σ))) := by
  have hrow := row_forget hl ht
  have hafter := afterRow_forget hl.2.2
  have hend := rowEnd_forget (σ := σ) t ts
  obtain ⟨q, p, rfl⟩ := exists_quote ht
  rw [map_cons, quotes_apply]
  cases hv : σ p with
  | none =>
    have hp : σ ⟨p.start, rowEnd ⟨.quote q, p⟩ ts⟩ = none := by
      cases ts with
      | nil => exact hv
      | cons u ts =>
        cases hu : u.lexeme.isQuote
        · simpa [rowEnd, hu] using hv
        · exact (hl.2.1 u rfl ht hu).2.2
    have hf : Token.forget σ ⟨.quote q, p⟩ = ⟨.quote q, default⟩ := by simp [Token.forget, hv]
    rw [hf] at hend ⊢
    rw [quotes_apply, hrow, hafter, hend]
    change (g.quotesExpr _ default).map _ = _
    rw [quotesExpr_forget g _ hp]
    simp [Function.comp_def]
  | some v =>
    obtain ⟨hv', b, hb, hb'⟩ := hl.1 v hv
    obtain rfl : q = { body := b } := by simpa using hb
    -- a changed literal stands alone
    have hn : row ts = [] := by
      cases ts with
      | nil => rfl
      | cons u ts =>
        refine row_of_not_isQuote (Bool.eq_false_iff.2 fun hu => ?_) ts
        exact absurd ((hl.2.1 u rfl ht hu).1.symm.trans hv) (by simp)
    have hf : Token.forget σ ⟨.quote { body := b }, p⟩ = ⟨.quote { body := v.toList }, default⟩ := by
      simp [Token.forget, hv]
    rw [hf] at hend ⊢
    rw [quotes_apply, hrow, hafter, hend, hn, rowEnd_of_row_eq_nil hn]
    change (g.quotesExpr [_] default).map _ = _
    rw [quotesExpr_plain g hv', map_nil, quotesExpr_plain g hb']
    simp [Change.value, hv]

lemma mirrors_quotes (g : Grammar) : Mirrored σ s P n g.quotes where
  eq ts hl _ := by
    cases ts with
    | nil => rfl
    | cons t ts =>
      cases ht : t.lexeme.isQuote with
      | true => exact quotes_forget g hl ht
      | false =>
        rw [quotes_of_row_eq_nil g (row_of_not_isQuote ht ts), map_cons,
          quotes_of_row_eq_nil g (row_of_not_isQuote ((isQuote_forget hl.1).trans ht) _)]
        rfl
  kept ts e rest hl _ hr := by
    cases ts with
    | nil => exact absurd (hr.symm.trans (quotes_of_row_eq_nil g rfl)) (by simp)
    | cons t ts =>
      cases ht : t.lexeme.isQuote with
      | false => simp [quotes_of_row_eq_nil g (row_of_not_isQuote ht ts)] at hr
      | true =>
        obtain ⟨q, p, rfl⟩ := exists_quote ht
        rw [quotes_apply, Option.map_eq_some_iff] at hr
        obtain ⟨e', he, hr⟩ := hr
        obtain ⟨rfl, rfl⟩ := Prod.mk.inj hr
        refine ⟨lone_afterRow hl.2.2, ?_⟩
        obtain he | he := spans_quotesExpr he <;> simp [he, places, ht, places_true, count_cons] <;>
        omega

end Rows

namespace Grammar.Steady

variable {g : Grammar} (hg : g.Steady σ s)
variable (typed : Bool)

include hg

lemma named : Mirrored σ s P n g.named := by
  refine .peeked rfl fun l => .peekedSecond ?literals fun m => ?_
  case literals =>
    intro _ _
    rcases l with _ | l
    · rfl
    · cases l <;> rfl
  split
  · refine .skipOf rfl (fun _ h => h.1.2) (.skipOf rfl (fun _ ⟨_, h⟩ => h.2) ?_)
    exact hg.expression.bind fun v => .made (by simp)
  · exact hg.expression.bind fun e => .ifOp .failure (.made (by simp))

lemma starExpression : Mirrored σ s P n g.starExpression := by
  refine .ifTryOp ?_ hg.expression
  exact .map hg.bitOr (by simp)

lemma starNamed : Mirrored σ s P n g.starNamed := by
  refine .ifTryOp ?_ hg.named
  exact .map hg.bitOr (by simp)

lemma starExpressions : Mirrored σ s P n g.starExpressions :=
  .map (.commaItems hg.starExpression) fun items => ⟨tupleOr_forget σ items, by simp⟩

lemma yielded : Mirrored σ s P n g.yielded := by
  refine .afterKeyword <| .ifTryKeyword ?_ ?_
  · exact .map hg.expression (by simp)
  · exact .map hg.starExpressions.maybe (by simp)

lemma yieldedOrExpressions : Mirrored σ s P n g.yieldedOrExpressions :=
  .ifKeyword hg.yielded hg.starExpressions

lemma targetItem : Mirrored σ s P n g.targetItem := by
  refine Mirrors.tryOp.andThen fun b => .join .rfl ?_ hg.bitOr fun e => ?_
  · exact .map hg.bitOr (by simp)
  · exact .condOf (by simp [Expr.isTarget_forget]) (.made (by simp)) .failure

lemma targets : Mirrored σ s P n g.targets :=
  .map (.commaItems hg.targetItem) fun items => ⟨tupleOr_forget σ items, by simp⟩

lemma clause : Mirrored σ s P n g.clause := by
  refine .peeked rfl fun l => .cond ?_ .none
  refine Mirrors.tryKeyword.andThen fun a => .afterKeyword ?_
  refine hg.targets.bind fun t => .afterKeyword ?_
  refine hg.disjunction.bind fun e => (Mirrors.many ?_).bind fun cs => .made (by simp; omega)
  refine .ifTryKeyword ?_ .none
  exact .map hg.disjunction (by simp)

lemma clauses : Mirrored σ s P n g.clauses :=
  (Mirrors.many hg.clause).bind fun cs => .condOf (by simp) .failure (.made (by simp))

omit hg in
lemma itemsUntil (hx : ∀ {P n}, Mirrored σ s P n x) (close : String) :
    Mirrored σ s P n (itemsUntil x close) := by
  refine .ifTryOp (.made (by simp)) ?_
  exact (Mirrors.commaItems hx).bind fun es => .afterOp (.made (by simp))

lemma parenthesized : Mirrored σ s P n g.parenthesized := by
  refine .afterOp <| .ifTryOp (.made (by simp)) <| .ifKeyword ?_ ?_
  · exact hg.yielded.bind fun e => .afterOp (.made (by simp))
  refine hg.starNamed.bind fun e => .ifTryOp ?_ <| .condOf (by simp) .failure ?_
  · exact (itemsUntil hg.starNamed ")").bind fun es => .made (by simp)
  refine .peeked rfl fun l => .cond ?_ ?_
  · exact hg.clauses.bind fun cs => .afterOp (.made (by simp))
  · exact .afterOp (.made (by simp))

lemma bracketed : Mirrored σ s P n g.bracketed := by
  refine .afterOp <| .ifTryOp (.made (by simp)) ?_
  refine hg.starNamed.bind fun e => .ifTryOp ?_ ?_
  · exact (itemsUntil hg.starNamed "]").bind fun es => .made (by simp)
  refine .peeked rfl fun l => .condOf (by simp) ?_ ?_
  · exact hg.clauses.bind fun cs => .afterOp (.made (by simp))
  · exact .afterOp (.made (by simp))

lemma entry : Mirrored σ s P n g.entry := by
  refine .ifTryOp ?_ ?_
  · exact hg.bitOr.bind fun v => .made (by simp)
  · exact hg.expression.bind fun k => .afterOp <| hg.expression.bind fun v => .made (by simp)

lemma moreEntries (first : Option Expr × Expr) (hn : (spans first).count s ≤ n) :
    Mirrors σ s P n (g.moreEntries (forget σ first)) (g.moreEntries first) := by
  simp at hn
  have hend : Mirrors σ s (fun _ => True) n
      (Reader.op "\x7d" >>= fun _ => Pure.pure (Expr.dict [forget σ first]))
      (Reader.op "\x7d" >>= fun _ => Pure.pure (Expr.dict [first])) :=
    .afterOp (.made (by simp; omega))
  refine .ifTryOp (.ifTryOp (.made (by simp; omega)) ?_) hend
  exact (Mirrors.commaItems hg.entry).bind fun es => .afterOp (.made (by simp; omega))

lemma braced : Mirrored σ s P n g.braced := by
  refine .afterOp <| .ifTryOp (.made (by simp)) <| .ifOp ?_ ?_
  · exact hg.entry.bind fun e => hg.moreEntries e (by simp)
  refine hg.starNamed.bind fun e => .ifOp ?_ (Mirrors.tryOp.andThen fun b => ?_)
  · refine .condOf (by simp) .failure <| .afterOp ?_
    refine hg.expression.bind fun v => .peeked rfl fun l => ?_
    refine .cond ?_ <| hg.moreEntries (some e, v) (by simp)
    exact hg.clauses.bind fun cs => .afterOp <| .made (by simp; omega)
  refine .cond ?_ ?_
  · exact (itemsUntil hg.starNamed "\x7d").bind fun es => .made (by simp)
  refine .peeked rfl fun l => .condOf (by simp) ?_ ?_
  · exact hg.clauses.bind fun cs => .afterOp (.made (by simp))
  · exact .afterOp (.made (by simp))

lemma atom : Mirrored σ s P n g.atom := by
  refine .peeked rfl fun l => ?_
  split
  · exact .skip rfl (.made (by simp))
  · exact .take rfl (fun _ h => h.2) fun t ht => .pure (by simp [Change.value, ht]) (by simp)
  · exact mirrors_quotes g
  · split
    · exact .take rfl (fun _ h => h.2) fun t ht => .pure (by simp [Change.value, ht]) (by simp)
    · exact .failure
  · exact hg.parenthesized
  · exact hg.bracketed
  · exact hg.braced
  · exact .take rfl (fun _ h => h.2) fun t ht => .pure (by simp [Change.value, ht]) (by simp)
  · exact .failure

lemma argument (a : Arguments) (hn : (spans a).count s ≤ n) :
    Mirrors σ s P n (g.argument (forget σ a)) (g.argument a) := by
  simp at hn
  refine .peeked rfl fun l => .peekedSecond (fun _ _ => by split <;> simp_all) fun m => ?_
  split
  · exact .skipOf rfl (fun _ h => h.1.2) (hg.expression.bind fun v => .made (by simp; omega))
  · refine .cond .failure <| .skipOf rfl (fun _ h => h.1.2) ?_
    exact hg.expression.bind fun v => .made (by simp; omega)
  · refine .skipOf rfl (fun _ h => h.1.2) (.skipOf rfl (fun _ ⟨_, h⟩ => h.2) ?_)
    exact hg.expression.bind fun v => .made (by simp; omega)
  · exact .cond (hg.named.bind fun e => .ifOp .failure (.made (by simp; omega))) .failure

lemma nextArgument (a : Arguments) :
    @Mirrors _ (Mirrors.extending a) σ s P ((spans a).count s) (g.nextArgument (forget σ a))
      (g.nextArgument a) := by
  let := Mirrors.extending a
  refine .peeked rfl fun l => .peekedSecond (fun _ _ => by split <;> simp_all) fun m => ?_
  split
  · exact .pure rfl (Nat.le_refl _)
  · exact .skipOf rfl (fun _ h => h.1.2) (.mapWith (hg.argument a (Nat.le_refl _)) (fun _ => rfl)
      fun _ => by simp)
  · exact .pure rfl (Nat.le_refl _)

lemma moreArguments (a : Arguments) :
    Mirrors σ s P ((spans a).count s) (g.moreArguments (forget σ a)) (g.moreArguments a) := by
  refine .bindWith 0 (.fold (fun a => hg.nextArgument a) a) (fun all => ?_) (by omega)
  exact Mirrors.tryOp.discarded.andThen fun _ => .afterOp (.made (by simp))

lemma arguments (generators : Bool) : Mirrored σ s P n (g.arguments generators) := by
  refine .ifTryOp (.made (by simp)) ?_
  refine (hg.argument {} (by simp)).bind fun first => .peeked rfl fun l => ?_
  have hmore {Q} : Mirrors σ s Q (n + (spans first).count s) (g.moreArguments (forget σ first))
      (g.moreArguments first) := (hg.moreArguments first).always (by omega)
  obtain ⟨phase, _ | ⟨e, _ | ⟨e', es⟩⟩, ks⟩ := first
  · exact hmore
  · cases startsClause l && generators
    · exact hmore
    · refine .condOf (by simp) .failure ?_
      exact hg.clauses.bind fun cs => .afterOp <| .made (by simp; omega)
  · exact hmore

lemma sliceItem : Mirrored σ s P n g.sliceItem := by
  refine .ifOp (.skip rfl (.map hg.expression (by simp))) ?_
  refine .peeked rfl fun l => .join .rfl .none (.map hg.named (by simp)) fun lower => .ifOp ?_ ?_
  · have hslice : Mirrors σ s (fun ts => True ∧ Next (some (.op ":")) ts)
        (n + (spans lower).count s)
        (do
          discard take
          let upper ← maybe g.expression
          let step ← if ← tryOp ":" then maybe g.expression else pure none
          pure (Expr.slice (forget σ lower) upper step))
        (do
          discard take
          let upper ← maybe g.expression
          let step ← if ← tryOp ":" then maybe g.expression else pure none
          pure (Expr.slice lower upper step)) := by
      refine .skip rfl (hg.expression.maybe.bind fun upper => ?_)
      refine Mirrors.tryOp.andThen fun b => .join .rfl hg.expression.maybe .none
        fun step => .made (by simp; omega)
    rcases lower with _ | e
    · exact hslice
    · cases e
      case assigned => exact .failure
      all_goals exact hslice
  · cases lower with
    | none => exact .failure
    | some e => exact .made (by simp)

lemma index : Mirrored σ s P n g.index := by
  refine (Mirrors.commaItems hg.sliceItem).bind fun ⟨es, b⟩ => .afterOp ?_
  rcases es with _ | ⟨e, _ | ⟨e', es⟩⟩
  · exact .made (by simp)
  · cases b <;> cases e <;> exact .made (by simp)
  · cases b <;> cases e <;> exact .made (by simp)

lemma trailer (e : Expr) :
    @Mirrors _ (Mirrors.extending e) σ s P ((spans e).count s) (g.trailer (forget σ e))
      (g.trailer e) := by
  let := Mirrors.extending e
  refine .peeked rfl fun l => ?_
  split
  · exact .skip rfl (Mirrors.name.andThen fun _ => .pure rfl (by simp))
  · refine .skip rfl ((hg.arguments true).bind fun a => .pure (by simp [forget]) ?_)
    simp
  · exact .skip rfl (hg.index.bind fun i => .pure rfl (by simp))
  · exact .pure rfl (Nat.le_refl _)

lemma primary : Mirrored σ s P n g.primary :=
  hg.atom.bind fun e => (Mirrors.fold (fun e => hg.trailer e) e).always (by omega)

lemma awaited : Mirrored σ s P n g.awaited := by
  refine .ifTryKeyword ?_ hg.primary
  exact .map hg.primary (by simp)

omit hg in
lemma eq_of_chosen {α : Type} {table : List (String × α)} {l : Option Lexeme} {a : α}
    (h : chosen table l = some a) : ∃ o, l = some (.op o) := by
  unfold chosen at h
  split at h
  · exact ⟨_, rfl⟩
  · cases h

lemma factor (fuel : Nat) : Mirrored σ s P n (g.factor fuel) := by
  induction fuel generalizing P n with
  | zero => exact .failure
  | succ fuel ih =>
    refine .peeked rfl fun l => ?_
    split
    next o ho =>
      obtain ⟨o, rfl⟩ := eq_of_chosen ho
      exact .skip rfl (.map ih (by simp))
    next =>
      refine hg.awaited.bind fun b => .ifTryOp ?_ (.made (by simp))
      exact ih.bind fun e => .made (by simp)

omit hg in
lemma leftOps (hx : ∀ {P n}, Mirrored σ s P n x)
    (table : List (String × BinaryOp)) : Mirrored σ s P n (leftOps x table) := by
  refine hx.bind fun e => (Mirrors.fold (fun e => ?_) e).always (by omega)
  let := Mirrors.extending e
  refine .peeked rfl fun l => ?_
  split
  next o ho =>
    obtain ⟨o, rfl⟩ := eq_of_chosen ho
    exact .skip rfl (hx.bind fun r => .pure rfl (by simp))
  next => exact .pure rfl (Nat.le_refl _)

lemma term : Mirrored σ s P n g.term :=
  leftOps (.lengthed fun _ => hg.factor _) _

lemma bitOrRule : Mirrored σ s P n g.bitOrRule :=
  leftOps (leftOps (leftOps (leftOps (leftOps hg.term _) _) _) _) _

omit hg in
lemma comparisonOp : Mirrored σ s P n comparisonOp := by
  refine .peeked rfl fun l => ?_
  split
  next o ho =>
    obtain ⟨o, rfl⟩ := eq_of_chosen ho
    exact .skip rfl (.made (by simp))
  next =>
    refine .ifTryKeyword (.made (by simp)) <| .ifTryKeyword ?_ ?_
    · exact .ifTryKeyword (.made (by simp)) (.made (by simp))
    · refine .peeked rfl fun l => .peekedSecond (fun _ _ => rfl) fun m => ?_
      refine .ite .rfl (fun h => ?_) .none
      obtain ⟨hl, hm⟩ := Bool.and_eq_true_iff.1 h
      rw [Mirrors.eq_of_isKeyword hl, Mirrors.eq_of_isKeyword hm]
      exact .skipOf rfl (fun _ h => h.1.2) (.skipOf rfl (fun _ ⟨_, h⟩ => h.2) (.made (by simp)))

lemma comparison : Mirrored σ s P n g.comparison := by
  refine hg.bitOrRule.bind fun e => (Mirrors.many ?_).bind fun rest => .pure ?_ ?_
  · refine comparisonOp.andThen fun o => ?_
    cases o with
    | none => exact .none
    | some o => exact hg.bitOrRule.bind fun e => .made (by simp)
  · cases rest <;> simp
  · cases rest <;> simp

omit hg in
@[simp] lemma forget_foldl_not (nots : List Unit) (e : Expr) :
    (nots.foldl (fun e _ => .unary .not e) e).forget σ =
      nots.foldl (fun e _ => .unary .not e) (e.forget σ) := by
  induction nots generalizing e with
  | nil => rfl
  | cons _ nots ih => simp [ih]

omit hg in
@[simp] lemma spans_foldl_not (nots : List Unit) (e : Expr) :
    (nots.foldl (fun e _ => Expr.unary .not e) e).spans = e.spans := by
  induction nots generalizing e with
  | nil => rfl
  | cons _ nots ih => simp [ih]

lemma inversion : Mirrored σ s P n g.inversion := by
  refine (Mirrors.many ?_).andThen fun nots => hg.comparison.bind fun e => .made (by simp)
  exact .ifTryKeyword (.made (by simp)) .none

omit hg in
lemma joinedBy (hx : ∀ {P n}, Mirrored σ s P n x) (word : String)
    {make : List Expr → Expr} (hm : ∀ es, (make es).forget σ = make (es.map (Expr.forget σ)))
    (hs : ∀ es, (make es).spans = es.flatMap Expr.spans) :
    Mirrored σ s P n (joinedBy word make x) := by
  refine hx.bind fun e => (Mirrors.many ?_).bind fun es => .pure ?_ ?_
  · refine .ifTryKeyword ?_ .none
    exact .map hx (by simp)
  · cases es <;> simp [hm]
  · cases es <;> simp [hs]

lemma disjunctionRule : Mirrored σ s P n g.disjunctionRule :=
  joinedBy (joinedBy hg.inversion _ (by simp) (by simp)) _ (by simp) (by simp)

lemma parameterHint (typed starred : Bool) :
    Mirrored σ s P n (g.parameterHint typed starred) := by
  refine .cond ?_ .none
  refine .ifTryOp ?_ .none
  refine .cond ?_ ?_
  · exact .map hg.starExpression (by simp)
  · exact .map hg.expression (by simp)

lemma plainParameter (ps : ParameterList) (hn : (spans ps).count s ≤ n) :
    Mirrors σ s P n (g.plainParameter typed (forget σ ps)) (g.plainParameter typed ps) := by
  refine Mirrors.name.andThen fun m => (hg.parameterHint typed false).bind fun hint => ?_
  refine Mirrors.tryOp.andThen fun b => .join .rfl (.map hg.expression (by simp)) .none fun v => ?_
  simp at hn
  exact .cond (.made (by simp; omega)) <| .condOf (by simp) .failure (.made (by simp; omega))

lemma parameter (ps : ParameterList) (hn : (spans ps).count s ≤ n) :
    Mirrors σ s P n (g.parameter typed (forget σ ps)) (g.parameter typed ps) := by
  have hplain {Q} := hg.plainParameter (P := Q) typed ps hn
  simp at hn
  refine .condOf (by simp) .failure <| .peeked rfl fun l => ?_
  split
  · exact .condOf (by simp) .failure <| .skip rfl (.made (by simp; omega))
  · refine .condOf (by simp) .failure <| .skip rfl ?_
    refine .peeked rfl fun l => ?_
    split
    · refine .skip rfl ((hg.parameterHint typed true).bind fun hint => ?_)
      exact .ifOp .failure (.made (by simp; omega))
    · exact .made (by simp; omega)
    · exact .failure
  · refine .condOf (by simp) .failure <| .skip rfl ?_
    refine Mirrors.name.andThen fun m => (hg.parameterHint typed false).bind fun hint => ?_
    exact .ifOp .failure (.made (by simp; omega))
  · exact hplain

lemma nextParameter (close : String) (ps : ParameterList) :
    @Mirrors _ (Mirrors.extending ps) σ s P ((spans ps).count s)
      (g.nextParameter typed close (forget σ ps)) (g.nextParameter typed close ps) := by
  let := Mirrors.extending ps
  refine .peeked rfl fun l => .peekedSecond (fun _ _ => rfl) fun m => ?_
  refine .ite .rfl (fun h => ?_) <| .pure rfl (Nat.le_refl _)
  rw [Mirrors.eq_of_isOp (Bool.and_eq_true_iff.1 h).1]
  exact .skipOf rfl (fun _ h => h.1.2) (.mapWith (hg.parameter typed ps (Nat.le_refl _)) (fun _ => rfl)
    fun _ => by simp)

lemma parameters (close : String) :
    Mirrored σ s P n (g.parameters typed close) := by
  refine .ifOp (.pure rfl (by simp [Parameters.none])) ?_
  refine (hg.parameter typed {} (by simp)).bind fun first => ?_
  refine .bindWith n (.fold (fun ps => hg.nextParameter typed close ps) first) (fun all => ?_)
    (Nat.le_refl _)
  refine Mirrors.tryOp.discarded.andThen fun _ => .peeked rfl fun l => ?_
  refine .condOf (by simp) .failure <| .condOf (by simp) .failure ?_
  exact .made (by simp)

lemma lambdaRule : Mirrored σ s P n g.lambdaRule := by
  refine .afterKeyword <| (hg.parameters false ":").bind fun ps => ?_
  exact .afterOp <| hg.expression.bind fun e => .made (by simp)

lemma expressionRule : Mirrored σ s P n g.expressionRule := by
  refine .ifKeyword hg.lambdaRule (hg.disjunctionRule.bind fun e => ?_)
  refine .ifTryKeyword ?_ (.made (by simp))
  refine hg.disjunctionRule.bind fun t => .afterKeyword ?_
  exact hg.expression.bind fun o => .made (by simp; omega)

end Grammar.Steady

lemma Grammar.steady_ofDepth (σ : Change) (s : Span) (depth : Nat) : (ofDepth depth).Steady σ s := by
  induction depth with
  | zero => exact ⟨.failure, .failure, .failure⟩
  | succ depth ih => exact ⟨ih.expressionRule, ih.disjunctionRule, ih.bitOrRule⟩

end AssetCatalog.Source
