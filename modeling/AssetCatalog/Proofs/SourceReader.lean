import AssetCatalog.Proofs.SourcePlaces

/-! Readers do not look at places, nor into plain text literals: `Mirrors` relates a reader of tokens
to one of the tokens after a change. No literal is read twice. -/

namespace AssetCatalog.Source

open Located

def Lexeme.isQuote : Lexeme → Bool
  | .quote _ => true
  | _ => false

def Token.forget (σ : Change) (t : Token) : Token :=
  match σ t.span with
  | some v => ⟨.quote { body := v.toList }, default⟩
  | none => ⟨t.lexeme, default⟩

/-- A change is made to a literal without marks and escapes, and gives it a text without escapes. -/
def Token.Fits (σ : Change) (t : Token) : Prop :=
  ∀ v, σ t.span = some v →
    '\\' ∉ v.toList ∧ ∃ b, t.lexeme = .quote { body := b } ∧ '\\' ∉ b

/-- Where a row of neighbouring literals ends. -/
def rowEnd : Token → List Token → Position
  | t, [] => t.span.stop
  | t, u :: ts => if u.lexeme.isQuote then rowEnd u ts else t.span.stop

/-- A change is made to literals that do not stand next to another one. -/
def Lone (σ : Change) : List Token → Prop
  | [] => True
  | t :: ts => t.Fits σ ∧
      (∀ u ∈ ts.head?, t.lexeme.isQuote → u.lexeme.isQuote →
        σ t.span = none ∧ σ u.span = none ∧ σ ⟨t.span.start, rowEnd t ts⟩ = none) ∧
      Lone σ ts

/-- The places of the literals that tokens can make up: neighbouring text literals are one, and
`joined` tells that such a literal goes on. -/
def places (joined : Bool) : List Token → List Span
  | [] => []
  | t :: ts =>
    if t.lexeme.isQuote then
      if joined then places true ts else ⟨t.span.start, rowEnd t ts⟩ :: places true ts
    else t.span :: places false ts

namespace Reader

def Next (l : Option Lexeme) (ts : List Token) : Prop := ts.head?.map Token.lexeme = l

def Second (l : Option Lexeme) (ts : List Token) : Prop := ts.tail.head?.map Token.lexeme = l

section Apply

variable {α β : Type} (ts : List Token)

lemma bind_apply (x : Reader α) (k : α → Reader β) :
    (x >>= k) ts = (x ts).bind fun p => k p.1 p.2 := rfl

lemma pure_apply (a : α) : (pure a : Reader α) ts = some (a, ts) := rfl

lemma map_apply (f : α → β) (x : Reader α) : (f <$> x) ts = (x ts).map fun p => (f p.1, p.2) := by
  change (x ts).bind (fun p => some (f p.1, p.2)) = _
  cases x ts <;> rfl

lemma failure_apply : (failure : Reader α) ts = none := rfl

lemma orElse_apply (x y : Reader α) : (x <|> y) ts = (x ts).or (y ts) := by
  change (x ts).orElse (fun _ => y ts) = _
  cases x ts <;> rfl

lemma get_bind_apply (k : List Token → Reader β) : (get >>= k) ts = k ts ts := rfl

lemma peek_apply : peek ts = some (ts.head?.map Token.lexeme, ts) := rfl

lemma peekSecond_apply : peekSecond ts = some (ts.tail.head?.map Token.lexeme, ts) := rfl

lemma take_apply : take ts = match ts with
    | [] => none
    | t :: ts => some (t, ts) := by
  cases ts <;> rfl

end Apply

/-- `r'` reads the tokens after a change as `r` reads the tokens; `n` more literals at the place `s`
may come from elsewhere, and the tokens satisfy `P`. -/
structure Mirrors {α : Type} [Located α] (σ : Change) (s : Span) (P : List Token → Prop) (n : Nat)
    (r' r : Reader α) : Prop where
  eq : ∀ ts, Lone σ ts → P ts →
    r' (ts.map (.forget σ)) =
      (r ts).map (Prod.map (forget σ) (List.map (.forget σ)))
  kept : ∀ ts a rest, Lone σ ts → P ts → r ts = some (a, rest) →
    Lone σ rest ∧
      (spans a).count s + (places false rest).count s ≤ (places false ts).count s + n

/-- A reader that reads the tokens after a change as it reads the tokens. -/
abbrev Mirrored {α : Type} [Located α] (σ : Change) (s : Span) (P : List Token → Prop) (n : Nat)
    (r : Reader α) : Prop := Mirrors σ s P n r r

namespace Mirrors

variable {α β : Type} [Located α] [Located β] {σ : Change} {s : Span} {P Q : List Token → Prop}
  {n m : Nat} {r' r x' x y' y : Reader α} {k' k : α → Reader β} {f' f : α → β} {a' a : α}

lemma weaken (h : Mirrors σ s Q m r' r) (hPQ : ∀ ts, P ts → Q ts) (hmn : m ≤ n) :
    Mirrors σ s P n r' r where
  eq ts hl hp := h.eq ts hl (hPQ ts hp)
  kept ts a rest hl hp hr := by
    obtain ⟨hl', hc⟩ := h.kept ts a rest hl (hPQ ts hp) hr
    exact ⟨hl', by omega⟩

lemma always (h : Mirrors σ s (fun _ => True) m r' r) (hmn : m ≤ n) :
    Mirrors σ s P n r' r := h.weaken (fun _ _ => trivial) hmn

lemma pure (ha : a' = forget σ a) (hn : (spans a).count s ≤ n) :
    Mirrors σ s P n (Pure.pure a') (Pure.pure a) where
  eq ts _ _ := by simp [pure_apply, ha]
  kept ts b rest hl _ hr := by
    obtain ⟨rfl, rfl⟩ : a = b ∧ ts = rest := by simpa [pure_apply] using hr
    exact ⟨hl, by omega⟩

lemma made (h : a' = forget σ a ∧ (spans a).count s ≤ n) :
    Mirrors σ s P n (Pure.pure a') (Pure.pure a) := pure h.1 h.2

lemma idle {γ : Type} [Literalless γ] {a : γ} : Mirrored σ s P n (Pure.pure a) := made (by simp)

lemma failure : Mirrors σ s P n (failure : Reader α) failure where
  eq _ _ _ := rfl
  kept _ _ _ _ _ hr := by simp [failure_apply] at hr

/-- One reader after the other: what the first leaves over of `n` is there for the second. -/
lemma bindWith (l : Nat) (hx : Mirrors σ s P m x' x)
    (hk : ∀ a, Mirrors σ s (fun _ => True) (l + (spans a).count s) (k' (forget σ a)) (k a))
    (hn : l + m ≤ n) : Mirrors σ s P n (x' >>= k') (x >>= k) where
  eq ts hl hp := by
    rw [bind_apply, bind_apply, hx.eq ts hl hp]
    cases hr : x ts with
    | none => rfl
    | some p => exact (hk p.1).eq p.2 (hx.kept ts p.1 p.2 hl hp hr).1 trivial
  kept ts b rest hl hp hr := by
    rw [bind_apply, Option.bind_eq_some_iff] at hr
    obtain ⟨⟨a, mid⟩, ha, hb⟩ := hr
    obtain ⟨hl', hc⟩ := hx.kept ts a mid hl hp ha
    obtain ⟨hl'', hc'⟩ := (hk a).kept mid b rest hl' trivial hb
    exact ⟨hl'', by omega⟩

lemma bind (hx : Mirrors σ s P 0 x' x)
    (hk : ∀ a, Mirrors σ s (fun _ => True) (n + (spans a).count s) (k' (forget σ a)) (k a)) :
    Mirrors σ s P n (x' >>= k') (x >>= k) := bindWith n hx hk (by omega)

lemma andThen {γ : Type} [Literalless γ] {x' x : Reader γ} {k' k : γ → Reader β}
    (hx : Mirrors σ s P 0 x' x)
    (hk : ∀ a, Mirrors σ s (fun _ => True) n (k' a) (k a)) :
    Mirrors σ s P n (x' >>= k') (x >>= k) :=
  bind hx fun a => by simpa using hk a

lemma mapWith (hx : Mirrors σ s P m x' x) (hf : ∀ a, f' (forget σ a) = forget σ (f a))
    (hn : ∀ a, (spans (f a)).count s + m ≤ (spans a).count s + n) :
    Mirrors σ s P n (f' <$> x') (f <$> x) where
  eq ts hl hp := by
    rw [map_apply, map_apply, hx.eq ts hl hp]
    cases x ts <;> simp [hf]
  kept ts b rest hl hp hr := by
    rw [map_apply, Option.map_eq_some_iff] at hr
    obtain ⟨⟨a, mid⟩, ha, hb⟩ := hr
    obtain ⟨rfl, rfl⟩ := Prod.mk.inj hb
    obtain ⟨hl', hc⟩ := hx.kept ts a mid hl hp ha
    have hfa := hn a
    exact ⟨hl', by dsimp only; omega⟩

lemma map (hx : Mirrors σ s P 0 x' x) (h : ∀ a, f' (forget σ a) = forget σ (f a) ∧
      (spans (f a)).count s ≤ (spans a).count s + n) : Mirrors σ s P n (f' <$> x') (f <$> x) :=
  mapWith hx (fun a => (h a).1) fun a => (h a).2

lemma discarded (hx : Mirrors σ s P n x' x) : Mirrors σ s P n (discard x') (discard x) :=
  mapWith hx (fun _ => rfl) fun _ => by simp

lemma orElse (hx : Mirrors σ s P n x' x) (hy : Mirrors σ s P n y' y) :
    Mirrors σ s P n (x' <|> y') (x <|> y) where
  eq ts hl hp := by
    rw [orElse_apply, orElse_apply, hx.eq ts hl hp, hy.eq ts hl hp]
    cases x ts <;> simp
  kept ts a rest hl hp hr := by
    rw [orElse_apply, Option.or_eq_some_iff] at hr
    obtain hr | ⟨_, hr⟩ := hr
    · exact hx.kept ts a rest hl hp hr
    · exact hy.kept ts a rest hl hp hr

section Choice

variable {c' c : Prop} [Decidable c'] [Decidable c]

lemma ite (hc : c' ↔ c) (hx : c → Mirrors σ s P n x' x) (hy : Mirrors σ s P n y' y) :
    Mirrors σ s P n (if c' then x' else y') (if c then x else y) := by
  by_cases h : c
  · rw [if_pos (hc.2 h), if_pos h]
    exact hx h
  · rw [if_neg (mt hc.1 h), if_neg h]
    exact hy

lemma condOf (hc : c' ↔ c) (hx : Mirrors σ s P n x' x) (hy : Mirrors σ s P n y' y) :
    Mirrors σ s P n (if c' then x' else y') (if c then x else y) := ite hc (fun _ => hx) hy

lemma cond (hx : Mirrors σ s P n x' x) (hy : Mirrors σ s P n y' y) :
    Mirrors σ s P n (if c then x' else y') (if c then x else y) := condOf .rfl hx hy

lemma join (hc : c' ↔ c) (hx : Mirrors σ s P 0 x' x) (hy : Mirrors σ s P 0 y' y)
    (hk : ∀ a, Mirrors σ s (fun _ => True) (n + (spans a).count s) (k' (forget σ a)) (k a)) :
    Mirrors σ s P n (if c' then x' >>= k' else y' >>= k') (if c then x >>= k else y >>= k) :=
  condOf hc (hx.bind hk) (hy.bind hk)

lemma optional {x' x : Reader Unit} {k' k : Unit → Reader α} (hc : c' ↔ c)
    (hx : Mirrors σ s P 0 x' x) (hk : ∀ u, Mirrors σ s (fun _ => True) n (k' u) (k u)) :
    Mirrors σ s P n (if c' then x' >>= k' else k' ()) (if c then x >>= k else k ()) :=
  condOf hc (hx.andThen hk) ((hk ()).always (Nat.le_refl _))

end Choice

lemma lengthed {k' k : Nat → Reader α} (hk : ∀ l, Mirrors σ s P n (k' l) (k l)) :
    Mirrors σ s P n (get >>= fun ts => k' ts.length) (get >>= fun ts => k ts.length) where
  eq ts hl hp := by
    rw [get_bind_apply, get_bind_apply, List.length_map]
    exact (hk _).eq ts hl hp
  kept ts a rest hl hp hr := (hk _).kept ts a rest hl hp hr

lemma lined {k' k : Nat → Reader α} (hk : ∀ line, Mirrors σ s P n (k' 0) (k line)) :
    Mirrors σ s P n (get >>= fun ts => k' ((ts.head?.map fun t => t.span.start.line).getD 0))
      (get >>= fun ts => k ((ts.head?.map fun t => t.span.start.line).getD 0)) where
  eq ts hl hp := by
    have h0 : (((ts.map (Token.forget σ)).head?.map fun t => t.span.start.line).getD 0) = 0 := by
      cases ts with
      | nil => rfl
      | cons t ts => cases hv : σ t.span <;> simp [Token.forget, hv] <;> rfl
    rw [get_bind_apply, get_bind_apply, h0]
    exact (hk _).eq ts hl hp
  kept ts a rest hl hp hr := (hk _).kept ts a rest hl hp hr

section Peek

variable {o : String}

lemma head?_map_forget {ts : List Token} (hl : Lone σ ts) :
    (ts.map (Token.forget σ)).head?.map Token.lexeme = ts.head?.map Token.lexeme ∨
      ∃ q' q, ts.head?.map Token.lexeme = some (.quote q) ∧
        (ts.map (Token.forget σ)).head?.map Token.lexeme = some (.quote q') := by
  cases ts with
  | nil => exact .inl rfl
  | cons t ts =>
    cases hv : σ t.span with
    | none => exact .inl (by simp [Token.forget, hv])
    | some v =>
      obtain ⟨-, b, hb, -⟩ := hl.1 v hv
      exact .inr ⟨⟨false, false, false, false, v.toList⟩, ⟨false, false, false, false, b⟩,
        by simp [hb, Token.forget, hv]⟩

variable {k' k : Option Lexeme → Reader α}

/-- A look at the first token of `start ts`, which reads nothing. -/
lemma looked {look : Reader (Option Lexeme)} (start : List Token → List Token)
    (hlook : ∀ ts, look ts = some ((start ts).head?.map Token.lexeme, ts))
    (hmap : ∀ ts, start (ts.map (Token.forget σ)) = (start ts).map (Token.forget σ))
    (hlone : ∀ ts, Lone σ ts → Lone σ (start ts))
    (hq : ∀ q' q, k' (some (.quote q')) = k' (some (.quote q)))
    (hk : ∀ l, Mirrors σ s (fun ts => P ts ∧ (start ts).head?.map Token.lexeme = l) n (k' l) (k l)) :
    Mirrors σ s P n (look >>= k') (look >>= k) where
  eq ts hl hp := by
    simp only [bind_apply, hlook, Option.bind_some, hmap]
    obtain he | ⟨q', q, hn, he⟩ := head?_map_forget (hlone ts hl)
    · rw [he]
      exact (hk _).eq ts hl ⟨hp, rfl⟩
    · rw [he, hq q' q, hn]
      exact (hk _).eq ts hl ⟨hp, hn⟩
  kept ts a rest hl hp hr := by
    simp only [bind_apply, hlook, Option.bind_some] at hr
    exact (hk _).kept ts a rest hl ⟨hp, rfl⟩ hr

lemma peeked (hq : (fun q' _ => k' (some (.quote q'))) = fun _ q => k' (some (.quote q)))
    (hk : ∀ l, Mirrors σ s (fun ts => P ts ∧ Next l ts) n (k' l) (k l)) :
    Mirrors σ s P n (peek >>= k') (peek >>= k) :=
  looked id peek_apply (fun _ => rfl) (fun _ => id) (congrFun₂ hq) hk

lemma peekedSecond (hq : ∀ q' q, k' (some (.quote q')) = k' (some (.quote q)))
    (hk : ∀ l, Mirrors σ s (fun ts => P ts ∧ Second l ts) n (k' l) (k l)) :
    Mirrors σ s P n (peekSecond >>= k') (peekSecond >>= k) := by
  refine looked List.tail peekSecond_apply (fun ts => by rw [List.map_tail]) (fun ts hl => ?_) hq hk
  cases ts with
  | nil => trivial
  | cons t ts => exact hl.2.2

variable {p : Option Lexeme → Bool}

lemma ifNext (hp : ∀ q, p (some (.quote q)) = false)
    (hx : ∀ l, p l → Mirrors σ s (fun ts => P ts ∧ Next l ts) n x' x)
    (hy : Mirrors σ s P n y' y) :
    Mirrors σ s P n (peek >>= fun l => if p l then x' else y')
      (peek >>= fun l => if p l then x else y) :=
  peeked (by simp [hp]) fun l => ite .rfl (hx l) (hy.weaken (fun _ h => h.1) (Nat.le_refl _))

lemma eq_of_isOp {l : Option Lexeme} (h : isOp o l) : l = some (.op o) := by
  unfold isOp at h
  split at h
  · simpa [eq_comm] using h
  · simp at h

lemma eq_of_isKeyword {l : Option Lexeme} (h : isKeyword o l) :
    l = some (.keyword o) := by
  unfold isKeyword at h
  split at h
  · simpa [eq_comm] using h
  · simp at h

lemma ifOp (hx : Mirrors σ s (fun ts => P ts ∧ Next (some (.op o)) ts) n x' x)
    (hy : Mirrors σ s P n y' y) :
    Mirrors σ s P n (peek >>= fun l => if isOp o l then x' else y')
      (peek >>= fun l => if isOp o l then x else y) :=
  ifNext (fun _ => rfl) (fun _ hl => by rw [eq_of_isOp hl]; exact hx) hy

lemma ifKeyword (hx : Mirrors σ s (fun ts => P ts ∧ Next (some (.keyword o)) ts) n x' x)
    (hy : Mirrors σ s P n y' y) :
    Mirrors σ s P n (peek >>= fun l => if isKeyword o l then x' else y')
      (peek >>= fun l => if isKeyword o l then x else y) :=
  ifNext (fun _ => rfl) (fun _ hl => by rw [eq_of_isKeyword hl]; exact hx) hy

end Peek

section Take

lemma unchanged_of_not_isQuote {t : Token} (ht : t.Fits σ) (hq : t.lexeme.isQuote = false) :
    σ t.span = none := by
  cases hv : σ t.span with
  | none => rfl
  | some v =>
    obtain ⟨-, b, hb, -⟩ := ht v hv
    simp [hb, Lexeme.isQuote] at hq

variable {l : Lexeme} {k' k : Token → Reader α}

lemma take (hl : l.isQuote = false) (hP : ∀ ts, P ts → Next (some l) ts)
    (hk : ∀ t, σ t.span = none → Mirrors σ s (fun ts => P (t :: ts)) (n + [t.span].count s)
      (k' ⟨t.lexeme, default⟩) (k t)) :
    Mirrors σ s P n (take >>= k') (take >>= k) where
  eq ts hlone hp := by
    obtain ⟨t, ts, rfl, rfl⟩ : ∃ t us, ts = t :: us ∧ t.lexeme = l := by
      simpa [Next, List.head?_eq_some_iff] using hP ts hp
    have ht := unchanged_of_not_isQuote hlone.1 hl
    have hf : t.forget σ = ⟨t.lexeme, default⟩ := by simp [Token.forget, ht]
    simpa [bind_apply, take_apply, hf] using (hk t ht).eq ts hlone.2.2 hp
  kept ts a rest hlone hp hr := by
    obtain ⟨t, ts, rfl, rfl⟩ : ∃ t us, ts = t :: us ∧ t.lexeme = l := by
      simpa [Next, List.head?_eq_some_iff] using hP ts hp
    have ht := unchanged_of_not_isQuote hlone.1 hl
    obtain ⟨hl', hc⟩ := (hk t ht).kept ts a rest hlone.2.2 hp hr
    refine ⟨hl', ?_⟩
    simp only [places, hl, Bool.false_eq_true, if_false, List.count_cons, List.count_nil] at hc ⊢
    omega

lemma skipOf (hl : l.isQuote = false) (hP : ∀ ts, P ts → Next (some l) ts)
    (hx : Mirrors σ s (fun ts => ∃ t, P (t :: ts)) n x' x) :
    Mirrors σ s P n (discard Reader.take >>= fun _ => x') (discard Reader.take >>= fun _ => x) := by
  have he (y : Reader α) : (discard Reader.take >>= fun _ => y) = Reader.take >>= fun _ => y := by
    funext ts
    cases ts <;> rfl
  rw [he, he]
  exact take hl hP fun t _ => hx.weaken (fun _ h => ⟨t, h⟩) (by omega)

lemma skip (hl : l.isQuote = false)
    (hx : Mirrors σ s (fun ts => ∃ t, P (t :: ts) ∧ Next (some l) (t :: ts)) n x' x) :
    Mirrors σ s (fun ts => P ts ∧ Next (some l) ts) n (discard Reader.take >>= fun _ => x')
      (discard Reader.take >>= fun _ => x) := skipOf hl (fun _ h => h.2) hx

lemma skipLast (hl : l.isQuote = false) :
    Mirrors σ s (fun ts => P ts ∧ Next (some l) ts) n (discard Reader.take) (discard Reader.take) := by
  have he : (discard Reader.take : Reader Unit) = discard Reader.take >>= fun _ => Pure.pure () := by
    funext ts
    cases ts <;> rfl
  rw [he]
  exact skip hl idle

end Take

section Primitives

variable {o : String}

lemma op : Mirrored σ s P n (op o) := ifOp (skipLast rfl) failure

lemma tryOp : Mirrored σ s P n (tryOp o) := ifOp (skip rfl idle) idle

lemma keyword : Mirrored σ s P n (keyword o) := ifKeyword (skipLast rfl) failure

lemma tryKeyword : Mirrored σ s P n (tryKeyword o) := ifKeyword (skip rfl idle) idle

lemma name : Mirrored σ s P n name :=
  peeked rfl fun l => by
    split
    · exact skip rfl idle
    · exact failure

lemma word : Mirrored σ s P n (word o) := name.andThen fun _ => cond idle failure

lemma newline : Mirrored σ s P n newline :=
  peeked rfl fun l => by
    split
    · exact skipLast rfl
    · exact failure

variable (hx : Mirrors σ s (fun _ => True) n x' x)
include hx

lemma afterOp :
    Mirrors σ s P n (Reader.op o >>= fun _ => x') (Reader.op o >>= fun _ => x) := op.andThen fun _ => hx

lemma afterKeyword :
    Mirrors σ s P n (Reader.keyword o >>= fun _ => x') (Reader.keyword o >>= fun _ => x) :=
  keyword.andThen fun _ => hx

lemma ifTryOp (hy : Mirrors σ s (fun _ => True) n y' y) :
    Mirrors σ s P n (Reader.tryOp o >>= fun b => if b then x' else y')
      (Reader.tryOp o >>= fun b => if b then x else y) := tryOp.andThen fun _ => cond hx hy

lemma ifTryKeyword (hy : Mirrors σ s (fun _ => True) n y' y) :
    Mirrors σ s P n (Reader.tryKeyword o >>= fun b => if b then x' else y')
      (Reader.tryKeyword o >>= fun b => if b then x else y) := tryKeyword.andThen fun _ => cond hx hy

end Primitives

section Loops

lemma maybe (hx : Mirrors σ s P n x' x) : Mirrors σ s P n (maybe x') (maybe x) :=
  orElse (mapWith hx (fun _ => rfl) fun a => by simp) (made (by simp))

lemma none : Mirrors σ s P n (Pure.pure Option.none : Reader (Option α)) (Pure.pure Option.none) :=
  made (by simp)

section

variable {x' x : Reader (Option α)} (hx : Mirrors σ s (fun _ => True) 0 x' x)
include hx

lemma repeatFrom (fuel : Nat) (as : List α) :
    Mirrors σ s (fun _ => True) ((spans as).count s) (repeatFrom x' fuel (forget σ as))
      (repeatFrom x fuel as) := by
  induction fuel generalizing as with
  | zero => exact failure
  | succ fuel ih =>
    refine hx.bind fun a => ?_
    cases a with
    | none => exact pure (by simp) (by simp [(List.reverse_perm as).flatMap_right spans |>.count_eq])
    | some a => exact (ih (a :: as)).always (by simp; omega)

lemma many : Mirrors σ s P n (many x') (many x) :=
  lengthed fun _ => (repeatFrom hx _ []).always (by simp)

end

lemma commaItems (hx : ∀ {P}, Mirrors σ s P 0 x' x) :
    Mirrors σ s P n (commaItems x') (commaItems x) := by
  refine hx.bind fun a => ?_
  refine (many ?_).bind fun as => ?_
  · exact ifOp (maybe (afterOp hx)) none
  · exact tryOp.andThen fun b => made (by simp)

/-- An extension of `a`, which is `a` itself where there is none. -/
abbrev extending (a : α) : Located (Option α) := ⟨fun σ => Option.map (forget σ), fun b => spans (b.getD a)⟩

@[simp] lemma spans_extending_none (a : α) : @spans _ (extending a) Option.none = spans a := rfl

@[simp] lemma spans_extending_some (a b : α) : @spans _ (extending a) (some b) = spans b := rfl

variable {step' step : α → Reader (Option α)} (hs : ∀ a,
  @Mirrors _ (extending a) σ s (fun _ => True) ((spans a).count s) (step' (forget σ a)) (step a))
include hs

lemma foldFrom (fuel : Nat) (a : α) :
    Mirrors σ s (fun _ => True) ((spans a).count s) (foldFrom step' fuel (forget σ a))
      (foldFrom step fuel a) := by
  induction fuel generalizing a with
  | zero => exact failure
  | succ fuel ih =>
    refine @bindWith _ _ (extending a) _ _ _ _ _ _ _ _ _ _ 0 (hs a) (fun b => ?_) (by omega)
    cases b with
    | none => exact made (by simp)
    | some b => exact (ih b).always (by simp)

lemma fold (a : α) : Mirrors σ s P ((spans a).count s) (fold step' (forget σ a)) (fold step a) :=
  lengthed fun _ => (foldFrom hs _ a).always (Nat.le_refl _)

end Loops

end Mirrors

end Reader

end AssetCatalog.Source
