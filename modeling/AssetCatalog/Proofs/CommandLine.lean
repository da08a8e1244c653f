import AssetCatalog.Arguments
import AssetCatalog.Proofs.Run

/-!
# Reading command lines

What is read are uses of known arguments. Only their complaints touch the world.
-/

namespace AssetCatalog.CommandLine

open List

open Run (Ensures)

variable {word : String} {a : Argument} {w : Written} {rest : List (String × Mark)}
variable {I : World → Prop} {known exclusive : List Argument}

/-- An argument whose complaints keep `I`. -/
def Keeps (I : World → Prop) (a : Argument) : Prop :=
  ∀ word, Ensures I (a.complaint word) fun _ => True

/-- Marked words whose options are all known. -/
def MarksKnown (known : List Argument) (rest : List (String × Mark)) : Prop :=
  ∀ e ∈ rest, ∀ w, e.2 = .option (some w) → w.argument ∈ known

def Takes (a : Argument) (word : String) : Prop := a.choices = [] ∨ word ∈ a.choices

/-- The arguments that wait for words are known, and those that were given have words they take. -/
structure IsSound (known : List Argument) (p : Progress) : Prop where
  waiting : p.waiting ⊆ known
  uses : ∀ u ∈ p.given.uses, ∃ a ∈ known, a.name = u.1 ∧ ∀ word ∈ u.2, Takes a word

lemma mem_of_last? {args : Arguments} {name : String} (h : args.last? name = some word) :
    ∃ u ∈ args.uses, u.1 = name ∧ word ∈ u.2 := by
  rw [Arguments.last?, Arguments.wordsOf] at h
  rcases hu : (args.uses.filter fun u => u.1 = name).getLast? with _ | u
  · rw [hu] at h
    cases h
  · rw [hu] at h
    obtain ⟨hmem, hname⟩ := mem_filter.mp (mem_of_getLast? hu)
    exact ⟨u, hmem, of_decide_eq_true hname, mem_of_head? h⟩

/-! ## The arguments behind the marks -/

lemma mem_of_byFlag {flag : String} (h : byFlag known flag = some a) : a ∈ known :=
  mem_of_find?_eq_some h

lemma argument_of_mem_candidates (h : w ∈ candidates known word) : w.argument ∈ known := by
  have hspelling {x : Argument × String} (hx : x ∈ spellings known) : x.1 ∈ known := by
    obtain ⟨a, ha, hx⟩ := mem_flatMap.mp hx
    obtain ⟨f, _, rfl⟩ := mem_map.mp hx
    exact ha
  have hsome {c : Prop} [Decidable c] {x y : Written} (hx : x.argument ∈ known)
      (h : (if c then some x else none) = some y) : y.argument ∈ known := by
    split at h <;> cases h
    exact hx
  unfold candidates at h
  split at h
  · obtain ⟨⟨a, f⟩, ha, hw⟩ := mem_filterMap.mp h
    exact hsome (hspelling ha) hw
  · obtain ⟨⟨a, f⟩, ha, hw⟩ := mem_filterMap.mp h
    dsimp only at hw
    split at hw
    · cases hw
      exact hspelling ha
    · exact hsome (hspelling ha) hw

lemma argument_of_markOf (h : markOf known word = .ok (.option (some w))) : w.argument ∈ known := by
  unfold markOf at h
  split at h
  · cases h
  · split at h
    · next hflag =>
      cases h
      exact mem_of_byFlag hflag
    · split at h
      · cases h
      · dsimp only at h
        split at h
        · next hsplit =>
          cases h
          obtain ⟨x, _, hx⟩ := Option.bind_eq_some_iff.mp hsplit
          obtain ⟨a, ha, rfl⟩ := Option.map_eq_some_iff.mp hx
          exact mem_of_byFlag ha
        · split at h
          · next hcandidates =>
            cases h
            exact argument_of_mem_candidates (hcandidates ▸ mem_singleton_self _)
          · split at h <;> cases h
          · cases h

lemma marksKnown_of_markAll {words : List String} {marked : List (String × Mark)}
    (h : markAll known words = .ok marked) : MarksKnown known marked := by
  fun_induction markAll known words generalizing marked with
  | case1 =>
    cases h
    simp [MarksKnown]
  | case2 rest =>
    cases h
    simp [MarksKnown]
  | case3 word rest _ ih =>
    obtain ⟨m, hm, h⟩ := except_bind_eq_ok.mp h
    obtain ⟨ms, hms, h⟩ := except_bind_eq_ok.mp h
    cases h
    rintro e he w hw
    rcases mem_cons.mp he with rfl | he
    · cases hw
      exact argument_of_markOf hm
    · exact ih hms e he w hw

/-! ## The reading -/

section Reading

variable {p : Progress}

lemma checkWord_ensures (ha : Keeps I a) (word : String) :
    Ensures I (checkWord a word) fun _ => Takes a word := by
  apply Ensures.bind (ha word)
  intro complaint _
  cases complaint with
  | none =>
    split
    · next h => exact .pure (by simpa [Takes] using h)
    · exact .throw _
  | some m => exact .throw_bind _ _

variable (hknown : ∀ a ∈ known, Keeps I a)
include hknown

lemma accept_ensures {words : List String} (hp : IsSound known p) (ha : a ∈ known) :
    Ensures I (accept exclusive a words p) (IsSound known) := by
  apply Ensures.ite
  · exact .throw_bind _ _
  · apply Ensures.bind (.forM fun word _ => checkWord_ensures (hknown a ha) word)
    intro _ hwords
    have hnext : IsSound known { p with given := { uses := p.given.uses ++
        [(a.name, if a.flags.isEmpty then words.erase "--" else words)] } } :=
      ⟨hp.waiting, forall_mem_append.mpr
        ⟨hp.uses, forall_mem_singleton.mpr ⟨a, ha, rfl, hwords⟩⟩⟩
    apply Ensures.ite
    · split
      · exact .throw_bind _ _
      · exact .pure hnext
    · exact .pure hnext

lemma acceptAll_ensures {uses : List (Argument × List String)} (hp : IsSound known p)
    (huses : ∀ u ∈ uses, u.1 ∈ known) :
    Ensures I (uses.foldlM (fun p (u : Argument × List String) => accept exclusive u.1 u.2 p) p)
      (IsSound known) :=
  Ensures.foldlM hp fun _ hq u hu => accept_ensures hknown hq (huses u hu)

omit hknown in
lemma optionTakes_ensures (a : Argument) (rest : List (String × Mark)) :
    Ensures I (optionTakes a rest) fun _ => True := by
  unfold optionTakes
  split <;> first | exact .pure trivial | exact .throw _

lemma readOption_ensures {fuel : Nat}
    {done : List (Argument × List String)} (hp : IsSound known p) (hw : w.argument ∈ known)
    (hdone : ∀ u ∈ done, u.1 ∈ known) :
    Ensures I (readOption known exclusive rest fuel w done p) fun r =>
      IsSound known r.1 ∧ r.2 ⊆ rest := by
  induction fuel generalizing w done with
  | zero => exact .pure ⟨hp, List.Subset.refl _⟩
  | succ fuel ih =>
    have huses (ws : List String) : ∀ u ∈ done ++ [(w.argument, ws)], u.1 ∈ known := by
      simpa [or_imp, forall_and, hw] using hdone
    rw [readOption]
    split
    · apply Ensures.bind (optionTakes_ensures w.argument rest)
      intro n _
      apply Ensures.bind (acceptAll_ensures hknown hp (huses _))
      intro q hq
      exact .pure ⟨hq, drop_subset n rest⟩
    · apply Ensures.ite
      · apply Ensures.bind (acceptAll_ensures hknown hp (huses _))
        intro q hq
        exact .pure ⟨hq, List.Subset.refl _⟩
      · split
        · exact .throw _
        · apply Ensures.ite
          · exact .throw _
          · dsimp only
            split
            · apply Ensures.bind
              · exact acceptAll_ensures hknown ⟨hp.waiting, hp.uses⟩ (huses _)
              intro q hq
              exact .pure ⟨hq, List.Subset.refl _⟩
            · next hflag =>
              apply ih _ (huses _)
              have ha := mem_of_byFlag hflag
              split <;> exact ha

lemma readPlaces_ensures (hp : IsSound known p) :
    Ensures I (readPlaces exclusive rest p) fun r => IsSound known r.1 := by
  have hshares (served : List (Argument × Nat)) (hserved : ∀ s ∈ served, s.1 ∈ known)
      (acc : List (Argument × List String) × Nat) (hacc : ∀ u ∈ acc.1, u.1 ∈ known) :
      ∀ u ∈ (served.foldl (fun acc (s : Argument × Nat) =>
        (acc.1 ++ [(s.1, ((rest.drop acc.2).take s.2).map (·.1))], acc.2 + s.2)) acc).1,
        u.1 ∈ known := by
    induction served generalizing acc with
    | nil => exact hacc
    | cons s served ih =>
      obtain ⟨hs, hserved⟩ := forall_mem_cons.mp hserved
      apply ih hserved
      simpa [or_imp, forall_and, hs] using hacc
  apply Ensures.bind
  · apply acceptAll_ensures hknown hp
    apply hshares _ _ ([], 0) (by simp)
    exact fun s hs => hp.waiting (of_mem_zip hs).1
  · intro q hq
    exact .pure ⟨fun a ha => hp.waiting (mem_of_mem_drop ha), hq.uses⟩

lemma readAll_ensures {fuel : Nat} (hrest : MarksKnown known rest)
    (hp : IsSound known p) : Ensures I (readAll known exclusive fuel rest p) (IsSound known) := by
  induction fuel generalizing rest p with
  | zero => exact .pure hp
  | succ fuel ih =>
    have hsub {rest' : List (String × Mark)} (h : rest' ⊆ rest) : MarksKnown known rest' :=
      fun e he => hrest e (h he)
    apply Ensures.ite
    · split
      · exact .pure hp
      · next word w tail =>
        split
        · exact ih (hsub (subset_cons_self _ _)) ⟨hp.waiting, hp.uses⟩
        · next w =>
          have hw : w.argument ∈ known := hrest _ mem_cons_self w rfl
          apply Ensures.bind (readOption_ensures hknown hp hw (by simp))
          rintro ⟨q, tail'⟩ ⟨hq, htail⟩
          exact ih (hsub fun e he => mem_cons_of_mem _ (htail he)) hq
      · apply Ensures.bind (readPlaces_ensures hknown hp)
        rintro ⟨q, n⟩ hq
        apply Ensures.ite
        · exact ih (hsub (drop_subset _ _)) hq
        · exact ih (hsub (drop_subset _ _)) ⟨hq.waiting, hq.uses⟩
    · apply Ensures.bind (readPlaces_ensures hknown hp)
      rintro ⟨q, n⟩ hq
      exact .pure ⟨hq.waiting, hq.uses⟩

end Reading

/-- An invariant that the complaints of all arguments keep is kept by the reading, and what is read
are uses of the arguments, with words that these take. -/
lemma read_ensures {declared : List Argument} (words : List String)
    (hdeclared : ∀ a ∈ declared, Keeps I a) (hexclusive : ∀ a ∈ exclusive, Keeps I a) :
    Ensures I (CommandLine.read declared words exclusive) fun args => ∀ u ∈ args.uses,
      ∃ a ∈ help :: exclusive ++ declared, a.name = u.1 ∧ ∀ word ∈ u.2, Takes a word := by
  have hhelp : Keeps I help := fun _ => .pure trivial
  have hknown : ∀ a ∈ help :: exclusive ++ declared, Keeps I a := by
    rw [cons_append, forall_mem_cons, forall_mem_append]
    exact ⟨hhelp, hexclusive, hdeclared⟩
  apply Ensures.bind (.ofExcept fun _ => marksKnown_of_markAll)
  intro marked hmarked
  apply Ensures.bind
  · apply readAll_ensures hknown hmarked
    exact ⟨fun a ha => (mem_filter.mp ha).1, by simp⟩
  intro p hp
  apply Ensures.ite
  · exact .throw_bind _ _
  · apply Ensures.ite
    · exact .throw_bind _ _
    · apply Ensures.ite
      · exact .throw_bind _ _
      · exact .pure hp.uses

end AssetCatalog.CommandLine
