import AssetCatalog.Toml.Scalar
import AssetCatalog.Proofs.Fault

/-!
# Texts and keys are read front to back

What is taken off the front does not depend on what follows a character at which values end.
-/

namespace AssetCatalog.Toml

open List

variable {a c b q : List Char} {p : Char → Bool} {x : Char}

namespace Reader

variable {α β : Type}

lemma bind_apply (f : Reader α) (g : α → Reader β) (cs : List Char) :
    (f >>= g) cs = (f cs).bind fun x => g x.1 x.2 := rfl

lemma orElse_apply (f k : Reader α) (cs : List Char) :
    (f <|> k) cs = (f cs).tryCatch fun _ => k cs := rfl

lemma bind_eq_ok {f : Reader α} {g : α → Reader β} {v : β} :
    (f >>= g) a = .ok (v, c) ↔ ∃ x b, f a = .ok (x, b) ∧ g x b = .ok (v, c) := by
  rw [bind_apply]
  rcases f a with e | ⟨x, b⟩
  · simp [Except.bind]
  · simp [Except.bind]

lemma bind_ok {f : Reader α} {g : α → Reader β} {x : α} {v : β}
    (hf : f a = .ok (x, b)) (hg : g x b = .ok (v, c)) : (f >>= g) a = .ok (v, c) :=
  bind_eq_ok.mpr ⟨x, b, hf, hg⟩

end Reader

open Reader

lemma next?_of_pos {c : Char} (h : p c) (cs : List Char) :
    next? p (c :: cs) = .ok (some c, cs) := by
  simp [next?, h, pure, Except.pure]

lemma next?_of_neg {c : Char} (h : ¬ p c) (cs : List Char) :
    next? p (c :: cs) = .ok (none, c :: cs) := by
  simp [next?, h, pure, Except.pure]

lemma next?_eq_some : next? p a = .ok (some x, b) ↔ a = x :: b ∧ p x := by
  constructor
  · intro h
    cases a with
    | nil => cases h
    | cons c cs =>
      by_cases hc : p c
      · rw [next?_of_pos hc] at h
        cases h
        exact ⟨rfl, hc⟩
      · rw [next?_of_neg hc] at h
        cases h
  · rintro ⟨rfl, hx⟩
    exact next?_of_pos hx b

lemma next_eq_ok : next p a = .ok (x, b) ↔ a = x :: b ∧ p x := by
  rw [next, bind_eq_ok, ← next?_eq_some]
  constructor
  · rintro ⟨o, d, ho, hx⟩
    cases o with
    | none => cases hx
    | some y =>
      cases hx
      exact ho
  · exact fun h => ⟨some x, b, h, rfl⟩

lemma follows_self (x : Char) (cs : List Char) : follows x (x :: cs) = .ok (true, cs) := by
  rw [follows, map_eq_pure_bind, bind_apply, next?_of_pos (decide_eq_true rfl)]
  rfl

lemma follows_of_ne {c : Char} (h : c ≠ x) (cs : List Char) :
    follows x (c :: cs) = .ok (false, c :: cs) := by
  rw [follows, map_eq_pure_bind, bind_apply, next?_of_neg (by simpa using h)]
  rfl

variable {α β : Type} {P Q R K K' : List Char → Prop} {m : Nat} {f f' : Reader α} {g g' : α → Reader β}

/-! ## What readers take -/

/-- Characters at which values end: line ends, commas and closing brackets. -/
def isStop (c : Char) : Bool := c = '\n' || c = ',' || c = ']' || c = '\x7d'

def HasStop (cs : List Char) : Prop := ∃ c ∈ cs, isStop c = true

def Lines (p : List Char) : Prop := '\r' ∉ p

/-- Characters up to a place within a line. -/
structure MidLine (p : List Char) : Prop where
  lines : Lines p
  last : p.getLast? ≠ some '\n'

/-- Characters up to one within a line. -/
structure Shut (p : List Char) : Prop extends MidLine p where
  ne_nil : p ≠ []

/-- Characters up to a place within a line, with one among them at which values end. -/
structure Stops (p : List Char) : Prop extends MidLine p where
  stop : HasStop p

lemma HasStop.cons (h : isStop x) (c : List Char) : HasStop (x :: c) := ⟨x, by simp, h⟩

lemma HasStop.append_left (h : HasStop c) (p : List Char) : HasStop (p ++ c) := by
  obtain ⟨x, hx, hstop⟩ := h
  exact ⟨x, mem_append_right p hx, hstop⟩

lemma HasStop.append_right (h : HasStop a) (c : List Char) : HasStop (a ++ c) := by
  obtain ⟨x, hx, hstop⟩ := h
  exact ⟨x, mem_append_left c hx, hstop⟩

lemma HasStop.ne_nil (h : HasStop c) : c ≠ [] := by
  obtain ⟨x, hx, _⟩ := h
  exact ne_nil_of_mem hx

lemma Lines.append (ha : Lines a) (hq : Lines q) : Lines (a ++ q) := by
  simp_all [Lines]

lemma Lines.cons (hq : Lines q) (hx : x ≠ '\r') : Lines (x :: q) := by
  simp_all [Lines, eq_comm]

lemma MidLine.nil : MidLine [] := ⟨by simp [Lines], by simp⟩

lemma MidLine.append_of_ne_nil (ha : Lines a) (hq : MidLine q) (hne : q ≠ []) : MidLine (a ++ q) :=
  ⟨ha.append hq.lines, by rw [getLast?_append_of_ne_nil _ hne]; exact hq.last⟩

lemma MidLine.append (ha : MidLine a) (hq : MidLine q) : MidLine (a ++ q) := by
  cases q with
  | nil => simpa using ha
  | cons => exact .append_of_ne_nil ha.lines hq (by simp)

lemma MidLine.cons (hq : MidLine q) (hx : x ≠ '\r' ∧ x ≠ '\n') : MidLine (x :: q) :=
  .append (a := [x]) ⟨by simpa [Lines] using hx.1.symm, by simpa using hx.2⟩ hq

/-- How characters of two kinds, one after the other, are of a third kind. -/
class Joins (P Q : List Char → Prop) (R : outParam (List Char → Prop)) : Prop where
  join : ∀ {p q : List Char}, P p → Q q → R (p ++ q)

instance : Joins Lines Lines Lines := ⟨Lines.append⟩

instance : Joins MidLine MidLine MidLine := ⟨MidLine.append⟩

instance : Joins Lines Shut Shut := ⟨fun hp hq => ⟨.append_of_ne_nil hp hq.toMidLine hq.ne_nil, by simp [hq.ne_nil]⟩⟩

instance : Joins Shut MidLine Shut := ⟨fun hp hq => ⟨hp.toMidLine.append hq, by simp [hp.ne_nil]⟩⟩

instance : Joins Lines Stops Stops :=
  ⟨fun hp hq => ⟨.append_of_ne_nil hp hq.toMidLine hq.stop.ne_nil, hq.stop.append_left _⟩⟩

instance : Joins MidLine Stops Stops := ⟨fun hp hq => Joins.join hp.lines hq⟩

/-- When characters of a kind, in front of a text as `K` has it, make a text as `K'` has it. -/
class Leads (Q K K' : List Char → Prop) : Prop where
  lead : ∀ {q c : List Char}, Q q → K c → K' (q ++ c)

instance : Leads Q HasStop HasStop := ⟨fun {q _} _ hc => hc.append_left q⟩

instance : Leads Stops K HasStop := ⟨fun {_ c} hq _ => hq.stop.append_right c⟩

/-- What a reader takes is of the kind `P`. If `K` holds of the rest and the fuel of `f'` is `m`, then
`f'` reads the same whatever follows. -/
def Reads (P K : List Char → Prop) (m : Nat) (f f' : Reader α) : Prop :=
  ∀ ⦃a : List Char⦄ ⦃v : α⦄ ⦃c : List Char⦄, f a = .ok (v, c) →
    ∃ p, a = p ++ c ∧ P p ∧ (K c → p.length < m → ∀ X, f' (a ++ X) = .ok (v, c ++ X))

namespace Reads

lemma pure (h : P []) (v : α) : Reads P K m (pure v) (pure v) := by
  intro a w c heq
  cases heq
  exact ⟨[], rfl, h, fun _ _ _ => rfl⟩

lemma throw (e : Fault) : Reads P K m (throw e) f' := by
  intro a v c h
  cases h

lemma orRefuse (h : P []) (o : Option α) : Reads P K m (orRefuse o) (orRefuse o) := by
  cases o with
  | none => exact .throw _
  | some v => exact .pure h v

lemma mono (h : Reads P K m f f') (hP : ∀ p, P p → Q p) : Reads Q K m f f' := by
  intro a v c hf
  obtain ⟨p, ha, hp, happend⟩ := h hf
  exact ⟨p, ha, hP p hp, happend⟩

lemma le (h : Reads P K m f f') {k : Nat} (hk : k ≤ m) : Reads P K k f f' := by
  intro a v c hf
  obtain ⟨p, ha, hp, happend⟩ := h hf
  exact ⟨p, ha, hp, fun hc hp => happend hc (hp.trans_le hk)⟩

lemma of_any (h : Reads P (fun _ => True) m f f') : Reads P K m f f' := by
  intro a v c hf
  obtain ⟨p, ha, hp, happend⟩ := h hf
  exact ⟨p, ha, hp, fun _ => happend trivial⟩

lemma append (h : ∀ m, Reads P K m f f) {v : α} (hf : f a = .ok (v, c)) (hc : K c)
    (X : List Char) : f (a ++ X) = .ok (v, c ++ X) := by
  obtain ⟨p, rfl, _, happend⟩ := h (a.length + 1) hf
  exact happend hc (by simp) X

lemma zero (h : Reads P K m f f') {f'' : Reader α} : Reads P K 0 f f'' := by
  intro a v c hf
  obtain ⟨p, ha, hp, _⟩ := h hf
  exact ⟨p, ha, hp, fun _ hm => absurd hm (Nat.not_lt_zero _)⟩

/-- What comes first is read with the fuel `k`; what comes second takes the characters for which that is
too little. -/
lemma bindWith [Joins P Q R] {k : Nat} (hf : Reads P K' k f f')
    (hg : ∀ v, Reads Q K m (g v) (g' v)) (hlead : ∀ q c, Q q → K c → K' (q ++ c))
    (hfuel : ∀ q, Q q → m ≤ q.length + k) : Reads R K m (f >>= g) (f' >>= g') := by
  intro a w c h
  obtain ⟨v, b, hfv, hgv⟩ := bind_eq_ok.mp h
  obtain ⟨p, rfl, hp, hpappend⟩ := hf hfv
  obtain ⟨q, rfl, hq, hqappend⟩ := hg v hgv
  have hk := hfuel q hq
  refine ⟨p ++ q, by simp, Joins.join hp hq, fun hc hm X => bind_ok (b := q ++ c ++ X) (x := v) ?_ ?_⟩
  · exact hpappend (hlead q c hq hc) (by simp at hm; omega) X
  · exact hqappend hc (by simp at hm; omega) X

lemma bind [Joins P Q R] [Leads Q K K'] (hf : Reads P K' m f f')
    (hg : ∀ v, Reads Q K m (g v) (g' v)) : Reads R K m (f >>= g) (f' >>= g') :=
  hf.bindWith hg (fun _ _ => Leads.lead) (fun _ _ => Nat.le_add_left ..)

lemma seq [Joins P P P] [Leads P K K'] (hf : Reads P K' m f f')
    (hg : ∀ v, Reads P K m (g v) (g' v)) : Reads P K m (f >>= g) (f' >>= g') := .bind hf hg

lemma close [Joins P Stops Stops] (hf : Reads P HasStop m f f')
    (hg : ∀ v, Reads Stops K m (g v) (g' v)) : Reads Stops K m (f >>= g) (f' >>= g') := .bind hf hg

/-- A character is left for what comes second, so that less fuel is needed for what comes first. -/
lemma closeLess [Joins P Stops Stops] (hf : Reads P HasStop (m - 1) f f')
    (hg : ∀ v, Reads Stops K m (g v) (g' v)) : Reads Stops K m (f >>= g) (f' >>= g') := by
  refine hf.bindWith hg (fun _ _ => Leads.lead) fun q hq => ?_
  have hlength := length_pos_iff.mpr hq.stop.ne_nil
  omega

lemma thenPure (hf : Reads P K m f f') (h : α → β) :
    Reads P K m (do let v ← f; Pure.pure (h v)) (do let v ← f'; Pure.pure (h v)) := by
  intro a w c heq
  obtain ⟨v, b, hfv, hv⟩ := bind_eq_ok.mp heq
  cases hv
  obtain ⟨p, rfl, hp, happend⟩ := hf hfv
  exact ⟨p, rfl, hp, fun hc hm X => bind_ok (happend hc hm X) rfl⟩

lemma map (hf : Reads P K m f f') (h : α → β) : Reads P K m (h <$> f) (h <$> f') := by
  rw [map_eq_pure_bind, map_eq_pure_bind]
  exact hf.thenPure h

lemma rounds {F : Nat → β → Reader α} (hzero : ∀ b, F 0 b = MonadExcept.throw .toml)
    (hsucc : ∀ n k, (∀ b, Reads P K k (F n b) (F k b)) → ∀ b, Reads P K (k + 1) (F (n + 1) b) (F (k + 1) b))
    (n m : Nat) (b : β) : Reads P K m (F n b) (F m b) := by
  induction n generalizing m b with
  | zero =>
    rw [hzero]
    exact .throw _
  | succ n ih =>
    cases m with
    | zero => exact (hsucc n 0 (ih 0) b).zero
    | succ k => exact hsucc n k (ih k) b

lemma fueled {F : Nat → Reader α} (h : ∀ n m, Reads P K m (F n) (F m)) :
    Reads P K m (fueled F) (fueled F) := by
  intro a v c hf
  obtain ⟨p, rfl, hp, _⟩ := h _ 0 hf
  refine ⟨p, rfl, hp, fun hc _ X => ?_⟩
  obtain ⟨q, hq, _, happend⟩ := h _ ((p ++ c ++ X).length + 1) hf
  obtain rfl := append_cancel_right hq
  exact happend hc (by simp) X

end Reads

/-- A reader that looks at the next character. Where that character is taken, the fuel for it is left
over. -/
lemma reads_next?_bind {g g' : Option Char → Reader β} [Leads R K HasStop]
    (hsome : ∀ x, p x → ∃ Q, Reads Q K (m - 1) (g (some x)) (g' (some x)) ∧ ∀ q, Q q → R (x :: q))
    (hnone : Reads R K m (g none) (g' none)) : Reads R K m (next? p >>= g) (next? p >>= g') := by
  intro a w c h
  obtain ⟨v, b, hv, hw⟩ := bind_eq_ok.mp h
  cases a with
  | nil =>
    cases hv
    obtain ⟨q, hq, hR, _⟩ := hnone hw
    have hstop (hc : K c) : HasStop (q ++ c) := Leads.lead hR hc
    exact ⟨q, hq, hR, fun hc => absurd hq.symm (hstop hc).ne_nil⟩
  | cons y a =>
    by_cases hy : p y
    · rw [next?_of_pos hy] at hv
      cases hv
      obtain ⟨Q, hQ, hR⟩ := hsome y hy
      obtain ⟨q, rfl, hq, happend⟩ := hQ hw
      refine ⟨y :: q, rfl, hR q hq, fun hc hm X => bind_ok (next?_of_pos hy _) ?_⟩
      exact happend hc (by simp at hm; omega) X
    · rw [next?_of_neg hy] at hv
      cases hv
      obtain ⟨q, hq, hR, happend⟩ := hnone hw
      exact ⟨q, hq, hR, fun hc hm X => bind_ok (next?_of_neg hy _) (happend hc hm X)⟩

lemma reads_if_follows {A A' B B' : Reader β} [Leads R K HasStop] (hA : Reads Q K (m - 1) A A')
    (hQ : ∀ q, Q q → R (x :: q)) (hB : Reads R K m B B') :
    Reads R K m (do if ← follows x then A else B) (do if ← follows x then A' else B') := by
  simp only [follows, bind_map_left]
  refine reads_next?_bind (fun y hy => ?_) hB
  obtain rfl := of_decide_eq_true hy
  exact ⟨Q, hA, hQ⟩

lemma reads_next_bind {g g' : Char → Reader β}
    (h : ∀ x, p x → ∃ Q, Reads Q K (m - 1) (g x) (g' x) ∧ ∀ q, Q q → R (x :: q)) :
    Reads R K m (next p >>= g) (next p >>= g') := by
  intro a w c hread
  obtain ⟨y, b, hnext, hw⟩ := bind_eq_ok.mp hread
  obtain ⟨rfl, hy⟩ := next_eq_ok.mp hnext
  obtain ⟨Q, hQ, hR⟩ := h y hy
  obtain ⟨q, rfl, hq, happend⟩ := hQ hw
  refine ⟨y :: q, rfl, hR q hq, fun hc hm X => bind_ok (next_eq_ok.mpr ⟨rfl, hy⟩) ?_⟩
  exact happend hc (by simp at hm; omega) X

lemma reads_expect_bind {A A' : Reader β} (hA : Reads Q K (m - 1) A A') (hQ : ∀ q, Q q → R (x :: q)) :
    Reads R K m (do expect x; A) (do expect x; A') := by
  simp only [expect, bind_assoc, pure_bind]
  refine reads_next_bind fun y hy => ?_
  obtain rfl := of_decide_eq_true hy
  exact ⟨Q, hA, hQ⟩

lemma lines_of_forall (hp : p '\r' = false) (q : List Char) (h : ∀ c ∈ q, p c) : Lines q :=
  fun hmem => absurd (h _ hmem) (by simp [hp])

lemma midLine_of_forall (hr : p '\r' = false) (hn : p '\n' = false) (q : List Char)
    (h : ∀ c ∈ q, p c) : MidLine q :=
  ⟨lines_of_forall hr q h, fun hlast => by
    have := h _ (mem_of_getLast? hlast)
    rw [hn] at this
    cases this⟩

lemma dropWhile_append_of_ne_nil (h : a.dropWhile p ≠ []) (X : List Char) :
    (a ++ X).dropWhile p = a.dropWhile p ++ X := by
  simp only [List.dropWhile_append, List.isEmpty_iff, h, if_false]

lemma takeWhile_append_of_ne_nil (h : a.dropWhile p ≠ []) (X : List Char) :
    (a ++ X).takeWhile p = a.takeWhile p := by
  induction a with
  | nil => exact absurd rfl h
  | cons c a ih =>
    by_cases hc : p c
    · simp only [dropWhile_cons, hc, if_true] at h
      simp [hc, ih h]
    · simp [hc]

lemma reads_charsOf (h : ∀ q, (∀ c ∈ q, p c) → P q) :
    Reads P HasStop m (charsOf p) (charsOf p) := by
  intro a v c hread
  cases hread
  refine ⟨a.takeWhile p, takeWhile_append_dropWhile.symm,
    h _ fun c hc => mem_takeWhile_imp hc, fun hc _ X => ?_⟩
  rw [charsOf, takeWhile_append_of_ne_nil hc.ne_nil, dropWhile_append_of_ne_nil hc.ne_nil]
  rfl

/-- What stands behind a character at which values end is nothing to a reader that does not come so
far. -/
lemma reads_inFront (h : ∀ c, isStop c ∨ c = '\r' → p c = false) (f : Reader α) :
    Reads MidLine HasStop m (inFront p f) (inFront p f) := by
  intro a v c hread
  obtain ⟨⟨w, rest⟩, hf, hc⟩ := except_bind_eq_ok.mp hread
  cases hc
  have hle : (a.takeWhile p).length - rest.length ≤ (a.takeWhile p).length := Nat.sub_le _ _
  have hfront : a.take ((a.takeWhile p).length - rest.length) <+: a.takeWhile p :=
    prefix_of_prefix_length_le ( take_prefix _ a) ( takeWhile_prefix p)
      ((length_take_le _ _).trans hle)
  refine ⟨_, (take_append_drop _ a).symm,
    midLine_of_forall (h _ (.inr rfl)) (h _ (.inl rfl)) _ fun x hx =>
      mem_takeWhile_imp (hfront.subset hx), ?_⟩
  rintro ⟨x, hx, hstop⟩ - X
  have hrest : a.dropWhile p ≠ [] := fun hnil => by
    have hall := dropWhile_eq_nil_iff.mp hnil x (mem_of_mem_drop hx)
    rw [h x (.inl hstop)] at hall
    cases hall
  have hlength := hle.trans ( takeWhile_prefix p).length_le
  rw [inFront, takeWhile_append_of_ne_nil hrest, hf, except_ok_bind]
  dsimp only
  rw [drop_append_of_le_length hlength]
  rfl

lemma reads_skip (h : ∀ q, (∀ c ∈ q, p c) → P q) : Reads P HasStop m (skip p) (skip p) := by
  simpa [skip] using (reads_charsOf h).map fun _ => ()

/-! ## Blanks and comments -/

lemma reads_skipBlanks : Reads MidLine HasStop m (skip isBlank) (skip isBlank) :=
  reads_skip (midLine_of_forall rfl rfl)

lemma reads_skipComment : Reads MidLine HasStop m skipComment skipComment :=
  reads_if_follows (reads_skip (midLine_of_forall rfl rfl)) (fun _ h => h.cons (by decide)) (.pure .nil ())

lemma Lines.nil : Lines [] := by simp [Lines]

lemma reads_skipAll : Reads Lines HasStop m skipAll skipAll := by
  refine .fueled fun n m => .rounds (F := fun n (_ : Unit) => skipAllFrom n) (fun _ => rfl) ?_ n m ()
  intro n k ih _
  refine (reads_skip (lines_of_forall rfl)).seq fun _ => ?_
  exact reads_if_follows ((reads_skip (lines_of_forall rfl)).seq fun _ => ih ())
    (fun _ h => h.cons (by decide)) (.pure .nil ())

/-! ## Texts -/

lemma reads_exactly (hp : p '\r' = false) (count : Nat) :
    Reads Lines HasStop m (exactly p count) (exactly p count) := by
  induction count generalizing m with
  | zero => exact .pure .nil _
  | succ count ih =>
    refine reads_next_bind fun x hx => ⟨Lines, ih.thenPure _, fun q h => h.cons ?_⟩
    rintro rfl
    rw [hp] at hx
    cases hx

lemma reads_hexChar (count : Nat) : Reads Lines HasStop m (hexChar count) (hexChar count) := by
  refine (reads_exactly (by decide) count).seq fun cs => ?_
  dsimp only
  split
  · exact .pure .nil _
  · exact .throw _

lemma ne_of_allowed {multi : Bool} (h : allowed multi x) : x ≠ '\r' := by
  rintro rfl
  cases multi <;> cases h

lemma reads_escape (multi : Bool) : Reads Lines HasStop m (escape multi) (escape multi) := by
  refine reads_next_bind fun x hx => ⟨Lines, ?_, fun q h => h.cons (ne_of_allowed hx)⟩
  split
  · refine (reads_charsOf (lines_of_forall rfl)).seq fun more => ?_
    split
    · exact .pure .nil _
    · exact .throw _
  · split
    · exact reads_hexChar 4
    · split
      · exact reads_hexChar 8
      · exact .orRefuse .nil _

lemma reads_textBody {quote : Char} (hquote : quote ≠ '\n') (multi : Bool) :
    Reads Shut HasStop m (textBody quote multi) (textBody quote multi) := by
  refine .fueled fun n m => .rounds (F := fun n (b : Nat × List Char) => textFrom quote multi n b.1 b.2)
    (fun _ => rfl) (fun n k ih b => ?_) n m (0, [])
  have hrest {x : Char} (hx : allowed multi x) (q : List Char) (h : Shut q) : Shut (x :: q) :=
    Joins.join (P := Lines) (p := [x]) (Lines.nil.cons (ne_of_allowed hx)) h
  refine reads_next_bind fun x hx => ?_
  split
  · rename_i heq
    split
    · refine ⟨([] = ·), .pure rfl _, ?_⟩
      rintro _ rfl
      exact ⟨MidLine.nil.cons ⟨ne_of_allowed hx, heq ▸ hquote⟩, by simp⟩
    · exact ⟨Shut, ih (_, _), hrest hx⟩
  · split
    · exact ⟨Shut, (reads_escape multi).bind fun _ => ih (0, _), hrest hx⟩
    · exact ⟨Shut, ih (0, _), hrest hx⟩

lemma reads_atMost (hx : x ≠ '\r' ∧ x ≠ '\n') (count : Nat) :
    Reads MidLine HasStop m (atMost x count) (atMost x count) := by
  induction count generalizing m with
  | zero => exact .pure .nil _
  | succ count ih =>
    exact reads_if_follows (ih.thenPure _) (fun _ h => h.cons hx) (.pure .nil _)

lemma reads_textAfter {quote : Char} (hquote : quote ≠ '\r' ∧ quote ≠ '\n') :
    Reads MidLine HasStop m (textAfter quote) (textAfter quote) := by
  have hcons (q : List Char) (h : MidLine q) : MidLine (quote :: q) := h.cons hquote
  have hmulti {m : Nat} : Reads Shut HasStop m
      (do let body ← textBody quote true; let quotes ← atMost quote 2; pure (String.ofList (body ++ quotes)))
      (do let body ← textBody quote true; let quotes ← atMost quote 2; pure (String.ofList (body ++ quotes))) :=
    (reads_textBody hquote.2 true).bind fun _ => (reads_atMost hquote 2).thenPure _
  refine reads_if_follows (reads_if_follows (Q := Shut) ?_ (fun q h => h.toMidLine.cons hquote) (.pure .nil _))
    hcons (((reads_textBody hquote.2 false).mono fun _ h => h.toMidLine).thenPure _)
  simp only [follows, bind_map_left]
  refine reads_next?_bind (fun x hx => ⟨Shut, hmulti, fun q h => ?_⟩) hmulti
  exact Joins.join (P := Lines) (p := [x]) (by simp [Lines, (of_decide_eq_true hx : x = '\n')]) h

/-! ## Keys -/

lemma reads_readKeyPart : Reads MidLine HasStop m readKeyPart readKeyPart := by
  refine reads_next?_bind (fun x hx => ?_) ?_
  · have hquote : x ≠ '\r' ∧ x ≠ '\n' := by
      obtain rfl | rfl : x = '"' ∨ x = '\'' := by simpa using hx
      · decide
      · decide
    exact ⟨Shut, (reads_textBody hquote.2 false).thenPure _, fun _ h => h.toMidLine.cons hquote⟩
  · refine reads_next_bind fun x hx => ⟨MidLine, ?_, fun _ h => h.cons ⟨?_, ?_⟩⟩
    · exact (reads_charsOf (midLine_of_forall (by decide) (by decide))).thenPure _
    · rintro rfl
      cases hx
    · rintro rfl
      cases hx

lemma reads_readKey : Reads MidLine HasStop m readKey readKey := by
  refine .fueled fun n m => .rounds (F := fun n (_ : Unit) => keyFrom n) (fun _ => rfl) ?_ n m ()
  intro n k ih _
  refine reads_readKeyPart.seq fun part => reads_skipBlanks.seq fun _ => ?_
  exact reads_if_follows (reads_skipBlanks.seq fun _ => (ih ()).thenPure _)
    (fun _ h => h.cons (by decide)) (.pure .nil _)

end AssetCatalog.Toml
