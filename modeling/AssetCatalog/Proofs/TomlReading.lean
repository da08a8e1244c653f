import AssetCatalog.Toml.Document
import AssetCatalog.Proofs.TomlText

/-!
# Documents are read line by line

A document is a list of steps, each of which changes what has been read.
-/

namespace AssetCatalog.Toml

open Reader List

variable {ss us : List Step}
variable {a c : List Char} {n m : Nat} {v : Value}

/-! ## Values -/

lemma reads_readScalar : Reads MidLine HasStop m readScalar readScalar := by
  refine reads_inFront (fun c hc => ?_) _
  rcases hc with hc | rfl
  · rw [isStop] at hc
    simp only [Bool.or_eq_true, decide_eq_true_eq] at hc
    rcases hc with ((rfl | rfl) | rfl) | rfl <;> decide
  · decide

lemma reads_readEntry {f f' : Reader Value} (h : Reads MidLine HasStop m f f') :
    Reads MidLine HasStop m (readEntry f) (readEntry f') :=
  reads_readKey.seq fun _ => reads_expect_bind
    (reads_skipBlanks.seq fun _ => (h.le (Nat.sub_le m 1)).thenPure _) fun _ h => h.cons (by decide)

/-- Values, the values of an array and the entries of a table in line are read front to back. -/
structure ValuesRead (n m : Nat) : Prop where
  value : Reads MidLine HasStop m (readValue n) (readValue m)
  items : Reads Stops (fun _ => True) m (readItems n) (readItems m)
  inline (es : Entries) (frozen : List (List String)) :
    Reads Stops (fun _ => True) m (readInline n es frozen) (readInline m es frozen)

namespace ValuesRead

variable (h : ValuesRead n m)

include h

lemma value_succ : Reads MidLine HasStop (m + 1) (readValue (n + 1)) (readValue (m + 1)) := by
  refine reads_next?_bind (fun x hx => ?_) reads_readScalar
  have hopen : x = '"' ∨ x = '\'' ∨ x = '[' ∨ x = '\x7b' := by simpa using hx
  obtain rfl | rfl | rfl | rfl := hopen
  · exact ⟨MidLine, (reads_textAfter (by decide)).map _, fun _ h => h.cons (by decide)⟩
  · exact ⟨MidLine, (reads_textAfter (by decide)).map _, fun _ h => h.cons (by decide)⟩
  · exact ⟨Stops, h.items.of_any.map _, fun _ h => h.toMidLine.cons (by decide)⟩
  · refine ⟨MidLine, reads_skipBlanks.seq fun _ => ?_, fun _ h => h.cons (by decide)⟩
    exact reads_if_follows (.pure MidLine.nil _) (fun _ h => h.cons (by decide))
      (((h.inline [] []).of_any.mono fun _ h => h.toMidLine).map _)

lemma items_succ :
    Reads Stops (fun _ => True) (m + 1) (readItems (n + 1)) (readItems (m + 1)) := by
  have hclose (q : List Char) (hq : [] = q) : Stops (']' :: q) :=
    hq ▸ ⟨MidLine.nil.cons (by decide), .cons rfl _⟩
  refine reads_skipAll.close fun _ => reads_if_follows (.pure rfl _) hclose ?_
  refine h.value.closeLess fun v => reads_skipAll.close fun _ => ?_
  exact reads_if_follows (h.items.map _) (fun _ h => ⟨h.toMidLine.cons (by decide), .cons rfl _⟩)
    (reads_expect_bind (.pure rfl _) hclose)

lemma inline_succ (es : Entries) (frozen : List (List String)) :
    Reads Stops (fun _ => True) (m + 1) (readInline (n + 1) es frozen) (readInline (m + 1) es frozen) := by
  refine (reads_readEntry h.value).closeLess fun (key, v) => ?_
  refine (Reads.orRefuse MidLine.nil _).close fun es => reads_skipBlanks.close fun _ => ?_
  refine reads_if_follows (reads_skipBlanks.close fun _ => h.inline _ _)
    (fun _ h => ⟨h.toMidLine.cons (by decide), .cons rfl _⟩) (reads_expect_bind (.pure rfl _) ?_)
  rintro _ rfl
  exact ⟨MidLine.nil.cons (by decide), .cons rfl _⟩

end ValuesRead

lemma valuesRead (n m : Nat) : ValuesRead n m := by
  induction n generalizing m with
  | zero =>
    exact ⟨by rw [readValue.eq_def]; exact .throw _, by rw [readItems.eq_def]; exact .throw _,
      fun _ _ => by rw [readInline.eq_def]; exact .throw _⟩
  | succ n ih =>
    have hsucc (m : Nat) : ValuesRead (n + 1) (m + 1) :=
      ⟨(ih m).value_succ, (ih m).items_succ, (ih m).inline_succ⟩
    cases m with
    | zero => exact ⟨(hsucc 0).value.zero, (hsucc 0).items.zero, fun es frozen => ((hsucc 0).inline es frozen).zero⟩
    | succ m => exact hsucc m

/-! ## Scalars hold no other values -/

def isAtom : Value → Bool
  | .list _ | .map _ | .ellipsis => false
  | _ => true

/-- All that a reader may read satisfies `P`. -/
def Yields {α : Type} (P : α → Prop) (f : Reader α) : Prop :=
  ∀ ⦃l : List Char⦄ ⦃a : α⦄ ⦃r : List Char⦄, f l = .ok (a, r) → P a

namespace Yields

variable {α β : Type} {P : β → Prop} {f : Reader α} {g : α → Reader β} {k k' : Reader β}

lemma pure {b : β} (h : P b) : Yields P (pure b) := by
  intro l a r heq
  cases heq
  exact h

lemma throw (e : Fault) : Yields P (throw e) := fun _ _ _ h => nomatch h

lemma bindWith {Q : α → Prop} (hf : Yields Q f) (hg : ∀ a, Q a → Yields P (g a)) :
    Yields P (f >>= g) := by
  intro l b r h
  obtain ⟨a, s, hfa, hga⟩ := bind_eq_ok.mp h
  exact hg a (hf hfa) hga

lemma bind (hg : ∀ a, Yields P (g a)) : Yields P (f >>= g) :=
  bindWith (Q := fun _ => True) (fun _ _ _ _ => trivial) fun a _ => hg a

lemma map {h : α → β} (hf : Yields (fun a => P (h a)) f) : Yields P (h <$> f) := by
  rw [map_eq_pure_bind]
  exact hf.bindWith fun _ ha => .pure ha

lemma orElse (hk : Yields P k) (hk' : Yields P k') : Yields P (k <|> k') := by
  intro l b r h
  rw [orElse_apply] at h
  rcases hkl : k l with e | x
  · rw [hkl] at h
    exact hk' h
  · rw [hkl] at h
    exact hk (hkl.trans h)

lemma inFront (p : Char → Bool) (hk : Yields P k) : Yields P (inFront p k) := by
  intro l b r h
  obtain ⟨⟨a, rest⟩, hka, hb⟩ := except_bind_eq_ok.mp h
  cases hb
  exact hk hka

end Yields

lemma isAtom_of_map {α : Type} {x : Option α} {f : α → Value} (hf : ∀ a, isAtom (f a)) :
    ∀ w, x.map f = some w → isAtom w := by
  intro w hw
  obtain ⟨a, _, rfl⟩ := Option.map_eq_some_iff.mp hw
  exact hf a

lemma yields_readMoment : Yields (fun v => ∀ w, v = some w → isAtom w) readMoment :=
  .bind fun _ => .orElse (.bind fun _ => .bind fun _ => .bind fun _ => .pure (isAtom_of_map fun _ => rfl))
    (.pure (isAtom_of_map fun _ => rfl))

lemma yields_readWord : Yields (fun v => isAtom v) readWord := by
  have hwords : ∀ x ∈ words, isAtom x.2 := by simp [words, isAtom]
  refine List.foldrRecOn words _ (.throw _) fun k hk x hx => .orElse (fun l v r h => ?_) hk
  unfold word at h
  split at h
  · cases h
    exact hwords x hx
  · cases h

lemma except_map_eq_ok {α β : Type} {x : Except Fault α} {f : α → β} {b : β} :
    x.map f = .ok b ↔ ∃ a, x = .ok a ∧ f a = b := by
  cases x <;> simp [Except.map]

def IsAtomic (v : Except Fault Value) : Prop := ∀ w, v = .ok w → isAtom w = true

lemma isAtomic_ok (h : isAtom v) : IsAtomic (.ok v) := by
  rintro w ⟨⟩
  exact h

lemma Yields.ok {f : Reader Value} (hf : Yields (fun v => isAtom v) f) :
    Yields IsAtomic (.ok <$> f) := .map fun _ _ _ h => isAtomic_ok (hf h)

lemma yields_based (mark : Char) (base : Nat) : Yields (fun v => isAtom v) (based mark base) :=
  .bind fun _ => .bind fun _ => .bind fun _ => .pure rfl

lemma yields_decimal : Yields IsAtomic decimal := by
  refine .bind fun sign => .bind fun whole => .bind fun fraction => .bind fun exponent => ?_
  dsimp only
  split
  · refine .pure fun w hw => ?_
    obtain ⟨_, _, rfl⟩ := except_map_eq_ok.mp hw
    rfl
  · split
    · exact .pure (isAtomic_ok rfl)
    · exact .throw _

lemma yields_scalar : Yields IsAtomic scalar := by
  refine .orElse (yields_readMoment.bindWith fun v hv => .pure ?_) <|
    .orElse (.bind fun t => .pure (isAtomic_ok rfl)) <| (yields_based 'x' 16).ok.orElse <|
    (yields_based 'b' 2).ok.orElse <| (yields_based 'o' 8).ok.orElse <|
    yields_decimal.orElse yields_readWord.ok
  intro w hw
  cases v with
  | none => cases hw
  | some v =>
    cases hw
    exact hv w rfl

lemma yields_readScalar : Yields (fun v => isAtom v) readScalar :=
  .inFront _ <| yields_scalar.bindWith fun v hv => by
    cases v with
    | ok v => exact .pure (hv v rfl)
    | error e => exact .throw e

lemma exists_readItems {xs : List Value} (h : readValue n a = .ok (.list xs, c)) :
    ∃ k r, a = '[' :: r ∧ readItems k r = .ok (xs, c) := by
  have hother {f : Reader Value} {b : List Char} (hf : f b = .ok (.list xs, c))
      (hyields : Yields (fun v => ∀ xs, v ≠ .list xs) f) : False := hyields hf xs rfl
  cases n with
  | zero =>
    rw [readValue.eq_def] at h
    cases h
  | succ n =>
    rw [readValue.eq_def] at h
    obtain ⟨o, b, ho, hv⟩ := bind_eq_ok.mp h
    split at hv
    · rw [map_eq_pure_bind] at hv
      obtain ⟨ys, d, hitems, heq⟩ := bind_eq_ok.mp hv
      cases heq
      exact ⟨n, b, (next?_eq_some.mp ho).1, hitems⟩
    · refine (hother hv (.bind fun _ => .bind fun b => ?_)).elim
      split
      · exact .pure (by simp)
      · exact .map fun _ _ _ _ => by simp
    · exact (hother hv (.map fun _ _ _ _ => by simp)).elim
    · refine (hother hv fun _ v _ hread ys hys => ?_).elim
      have hatom := yields_readScalar hread
      rw [hys] at hatom
      cases hatom

/-! ## Steps -/

lemma reads_readStep : Reads MidLine HasStop m readStep readStep := by
  have hcons {x : Char} (hx : x ≠ '\r' ∧ x ≠ '\n') (q : List Char) (h : MidLine q) : MidLine (x :: q) := h.cons hx
  refine reads_if_follows (reads_if_follows ?_ (hcons (by decide)) ?_) (hcons (by decide)) ?_
  · exact reads_skipBlanks.seq fun _ => reads_readKey.seq fun _ => reads_expect_bind
      (reads_expect_bind (.pure MidLine.nil _) (hcons (by decide))) (hcons (by decide))
  · exact reads_skipBlanks.seq fun _ => reads_readKey.seq fun _ =>
      reads_expect_bind (.pure MidLine.nil _) (hcons (by decide))
  · exact (reads_readEntry (.fueled fun n m => (valuesRead n m).value)).thenPure _

lemma reads_readSteps : Reads MidLine HasStop m readSteps readSteps := by
  have hsteps (o : Option Char) : Reads MidLine HasStop m (readStepsFor o) (readStepsFor o) := by
    unfold readStepsFor
    split
    all_goals first | exact .pure .nil _ | exact reads_readStep.thenPure _
  intro a v c h
  obtain ⟨p, rfl, hp, happend⟩ := hsteps a.head? h
  refine ⟨p, rfl, hp, fun hc hm X => ?_⟩
  have hhead : (p ++ c ++ X).head? = (p ++ c).head? := head?_append_of_ne_nil _ (by simp [hc.ne_nil])
  refine Eq.trans ?_ (happend hc hm X)
  rw [← hhead]
  rfl

lemma reads_readLine : Reads MidLine HasStop m readLine readLine :=
  reads_skipBlanks.seq fun _ => reads_readSteps.seq fun _ => reads_skipBlanks.seq fun _ =>
    reads_skipComment.thenPure _

lemma readValue_bracket (n : Nat) (a : List Char) :
    readValue (n + 1) ('[' :: a) = (Value.list <$> readItems n) a := by
  rw [readValue.eq_def]
  rfl

lemma readEntry_append {key : List String} {xs : List Value}
    (h : readEntry (fueled readValue) a = .ok ((key, .list xs), c)) (X : List Char) :
    readEntry (fueled readValue) (a ++ X) = .ok ((key, .list xs), c ++ X) := by
  obtain ⟨_, b, hkey, h⟩ := bind_eq_ok.mp h
  obtain ⟨_, d, hequal, h⟩ := bind_eq_ok.mp h
  obtain ⟨_, e, hblank, h⟩ := bind_eq_ok.mp h
  obtain ⟨v, _, hv, heq⟩ := bind_eq_ok.mp h
  cases heq
  obtain ⟨k, r, rfl, hitems⟩ := exists_readItems hv
  obtain ⟨p, rfl, hp, happend⟩ := (valuesRead k ((r ++ X).length + 1)).items hitems
  -- the array holds a character at which values end, so that all before it is read as before
  have hstop : HasStop ('[' :: (p ++ c)) := (hp.stop.append_right c).append_left ['[']
  have hvalue : fueled readValue ('[' :: (p ++ c) ++ X) = .ok (.list xs, c ++ X) := by
    refine (readValue_bracket _ _).trans ?_
    rw [map_eq_pure_bind]
    exact bind_ok (happend trivial (by simp) X) rfl
  have hrest : HasStop d := by
    obtain ⟨q, rfl, _⟩ := reads_skipBlanks (m := 0) hblank
    exact hstop.append_left q
  obtain ⟨x, _, hnext, heq⟩ := bind_eq_ok.mp hequal
  cases heq
  obtain ⟨rfl, hx⟩ := next_eq_ok.mp hnext
  refine bind_ok (Reads.append (fun _ => reads_readKey) hkey (hrest.append_left [x]) X) ?_
  refine bind_ok (bind_ok (next_eq_ok.mpr ⟨rfl, hx⟩) rfl) ?_
  refine bind_ok (Reads.append (fun _ => reads_skipBlanks) hblank hstop X) ?_
  exact bind_ok hvalue rfl

/-! ## Documents -/

/-- The steps of a document, line by line. -/
inductive StepsRead : List Char → List Step → Prop
  | last {a : List Char} {ss : List Step} (h : readLine a = .ok (ss, [])) : StepsRead a ss
  | next {a rest : List Char} {ss ts : List Step} (h : readLine a = .ok (ss, '\n' :: rest))
      (hrest : StepsRead rest ts) : StepsRead a (ss ++ ts)

lemma runSteps_append (r : Reading) (ss ts : List Step) :
    runSteps r (ss ++ ts) = (runSteps r ss).bind (runSteps · ts) := foldlM_append

lemma elim_eq_ok {α : Type} {x : Option α} {a : α} :
    (x.elim (throw .toml) pure : Except Fault α) = .ok a ↔ x = some a := by
  cases x <;> simp

lemma length_rest_lt {rest : List Char} (h : readLine a = .ok (ss, '\n' :: rest)) :
    rest.length < a.length := by
  obtain ⟨p, rfl, _⟩ := reads_readLine (m := 0) h
  simp
  omega

lemma documentFrom_eq_ok {r r' : Reading} (hn : a.length < n) :
    documentFrom n r a = .ok r' ↔ ∃ ss, StepsRead a ss ∧ runSteps r ss = some r' := by
  induction n generalizing r a with
  | zero => cases hn
  | succ n ih =>
    rw [documentFrom]
    constructor
    · intro h
      obtain ⟨⟨ss, rest⟩, hline, h⟩ := except_bind_eq_ok.mp h
      obtain ⟨r1, hr1, h⟩ := except_bind_eq_ok.mp h
      rw [elim_eq_ok] at hr1
      split at h
      · cases h
        exact ⟨ss, .last hline, hr1⟩
      · have hlength := length_rest_lt hline
        obtain ⟨ts, hts, hrun⟩ := (ih (by omega)).mp h
        exact ⟨ss ++ ts, .next hline hts, by rw [runSteps_append, hr1, Option.bind_some, hrun]⟩
      · cases h
    · rintro ⟨_, hss, hrun⟩
      cases hss with
      | last hline =>
        exact except_bind_eq_ok.mpr ⟨_, hline, except_bind_eq_ok.mpr ⟨_, elim_eq_ok.mpr hrun, rfl⟩⟩
      | next hline hts =>
        rw [runSteps_append] at hrun
        obtain ⟨r1, hr1, hrun⟩ := Option.bind_eq_some_iff.mp hrun
        have hlength := length_rest_lt hline
        refine except_bind_eq_ok.mpr ⟨_, hline, except_bind_eq_ok.mpr ⟨r1, elim_eq_ok.mpr hr1, ?_⟩⟩
        exact (ih (by omega)).mpr ⟨_, hts, hrun⟩

/-- A text that is empty or ends with a line end. -/
def Ended (a : List Char) : Prop := ∀ x, a.getLast? = some x → x = '\n'

lemma Ended.of_append {p : List Char} (h : Ended (p ++ c)) : Ended c := by
  intro x hx
  refine h x ?_
  rw [getLast?_append, hx]
  rfl

lemma MidLine.eq_nil (h : MidLine a) (hend : Ended a) : a = [] := by
  rcases hx : a.getLast? with _ | x
  · exact getLast?_eq_none_iff.mp hx
  · rw [hend x hx] at hx
    exact absurd hx h.last

lemma StepsRead.next_iff {rest : List Char} (h : readLine a = .ok (ss, '\n' :: rest)) :
    StepsRead a us ↔ ∃ ts, StepsRead rest ts ∧ us = ss ++ ts := by
  constructor
  · intro hread
    cases hread with
    | last h' =>
      rw [h] at h'
      cases h'
    | next h' hrest =>
      rw [h] at h'
      cases h'
      exact ⟨_, hrest, rfl⟩
  · rintro ⟨ts, hrest, rfl⟩
    exact .next h hrest

lemma StepsRead.append_iff {X : List Char} (h : StepsRead a ss)
    (hend : Ended a) : StepsRead (a ++ X) us ↔ ∃ ts, StepsRead X ts ∧ us = ss ++ ts := by
  induction h generalizing us with
  | last h =>
    obtain ⟨p, rfl, hp, _⟩ := reads_readLine (m := 0) h
    rw [append_nil] at hend h
    obtain rfl := hp.eq_nil hend
    cases h
    simp only [nil_append, exists_eq_right']
  | next h hrest ih =>
    rename_i a rest ss ts
    have hline : readLine (a ++ X) = .ok (ss, '\n' :: (rest ++ X)) :=
      Reads.append (fun _ => reads_readLine) h (.cons rfl rest) X
    obtain ⟨p, rfl, _⟩ := reads_readLine (m := 0) h
    have hended : Ended rest := hend.of_append.of_append (p := ['\n'])
    rw [next_iff hline]
    simp only [ih hended]
    constructor
    · rintro ⟨_, ⟨us, hus, rfl⟩, rfl⟩
      exact ⟨us, hus, by simp⟩
    · rintro ⟨us, hus, rfl⟩
      exact ⟨ts ++ us, ⟨us, hus, rfl⟩, by simp⟩

lemma StepsRead.carriageReturn_notMem (h : StepsRead a ss) : '\r' ∉ a := by
  induction h with
  | last h =>
    obtain ⟨p, rfl, hp, _⟩ := reads_readLine (m := 0) h
    rw [append_nil]
    exact hp.lines
  | next h _ ih =>
    obtain ⟨p, rfl, hp, _⟩ := reads_readLine (m := 0) h
    have := hp.lines
    simp_all [Lines]

/-- What may follow a statement, and the steps of the document from there. -/
def RestRead (c : List Char) (ts : List Step) : Prop :=
  ∃ d, (do skip isBlank; skipComment) c = .ok ((), d) ∧
    (d = [] ∧ ts = [] ∨ ∃ rest, d = '\n' :: rest ∧ StepsRead rest ts)

lemma StepsRead.steps_iff (hblank : skip isBlank a = .ok ((), a))
    (hsteps : readSteps a = .ok (ss, c)) : StepsRead a us ↔ ∃ ts, RestRead c ts ∧ us = ss ++ ts := by
  have hline {vs : List Step} {d : List Char} : readLine a = .ok (vs, d) ↔
      (do skip isBlank; skipComment) c = .ok ((), d) ∧ vs = ss := by
    simp only [readLine, bind_eq_ok]
    constructor
    · rintro ⟨_, b, hb, ss', c', hc', _, e, he, _, _, hd, heq⟩
      rw [hblank] at hb
      cases hb
      rw [hsteps] at hc'
      cases hc'
      cases heq
      exact ⟨⟨_, e, he, hd⟩, rfl⟩
    · rintro ⟨⟨_, e, he, hd⟩, rfl⟩
      exact ⟨_, a, hblank, _, c, hsteps, _, e, he, _, d, hd, rfl⟩
  constructor
  · intro h
    cases h with
    | last h =>
      obtain ⟨hrest, rfl⟩ := hline.mp h
      exact ⟨[], ⟨_, hrest, .inl ⟨rfl, rfl⟩⟩, by simp⟩
    | next h hnext =>
      obtain ⟨hrest, rfl⟩ := hline.mp h
      exact ⟨_, ⟨_, hrest, .inr ⟨_, rfl, hnext⟩⟩, rfl⟩
  · rintro ⟨ts, ⟨d, hrest, ⟨rfl, rfl⟩ | ⟨rest, rfl, hnext⟩⟩, rfl⟩
    · rw [append_nil]
      exact .last (hline.mpr ⟨hrest, rfl⟩)
    · exact .next (hline.mpr ⟨hrest, rfl⟩) hnext

lemma parse_eq_ok {s : String} {m : Value} : parse s = .ok m ↔
    ∃ ss r, StepsRead (unifyLineEnds s.toList) ss ∧ runSteps {} ss = some r ∧ m = .map r.entries := by
  rw [parse, except_map_eq_ok]
  constructor
  · rintro ⟨r, h, rfl⟩
    obtain ⟨ss, hss, hrun⟩ := (documentFrom_eq_ok (Nat.lt_succ_self _)).mp h
    exact ⟨ss, r, hss, hrun, rfl⟩
  · rintro ⟨ss, r, hss, hrun, rfl⟩
    exact ⟨r, (documentFrom_eq_ok (Nat.lt_succ_self _)).mpr ⟨ss, hss, hrun⟩, rfl⟩

lemma unifyLineEnds_eq_self {cs : List Char} (h : '\r' ∉ cs) : unifyLineEnds cs = cs := by
  fun_induction unifyLineEnds cs with
  | case1 cs ih => simp at h
  | case2 c cs _ ih =>
    simp only [mem_cons, not_or] at h
    rw [ih h.2]
  | case3 => rfl

/-- Where every carriage return belongs to a line end, both ways to unify line ends agree. -/
lemma unifyNewlines_eq_unifyLineEnds {cs : List Char} (h : '\r' ∉ unifyLineEnds cs) :
    Text.unifyNewlines cs = unifyLineEnds cs := by
  fun_induction unifyLineEnds cs with
  | case1 cs ih =>
    simp only [mem_cons, not_or] at h
    rw [Text.unifyNewlines, ih h.2]
  | case2 c cs hne ih =>
    simp only [mem_cons, not_or] at h
    rw [Text.unifyNewlines, ih h.2]
    · exact fun _ hc _ => h.1 hc.symm
    · exact fun hc => h.1 hc.symm
  | case3 => rfl

end AssetCatalog.Toml
