import AssetCatalog.Proofs.YamlScalars

/-!
# Trees of blocks

A tree without tags is read back from its tokens.
-/

namespace AssetCatalog.Yaml

open List

variable {s : String}

/-! ## Forms -/

namespace Form

lemma depthOfList_leaves (vs : List Value) : depthOfList (vs.map fun v => .leaf (.ok v)) = 0 := by
  induction vs with
  | nil => rfl
  | cons v vs ih => simp [depthOfList, depth, ih]

lemma mapM_meet_leaves (vs : List Value) :
    vs.mapM (meet ∘ fun v => .leaf (.ok v)) = .ok (List.replicate vs.length []) := by
  induction vs with
  | nil => rfl
  | cons v vs ih =>
    rw [mapM_cons, ih]
    rfl

lemma contents_leaves (vs : List Value) : contents (vs.map fun v => .leaf (.ok v)) = vs := by
  induction vs with
  | nil => rfl
  | cons v vs ih => exact congrArg (v :: ·) ih

end Form

/-! ## Tokens -/

namespace Node

mutual

def blockTokens : Node → List Token
  | .scalar _ text decides => [.scalar text decides]
  | .sequence _ xs => .blockSequenceStart :: (itemTokens xs ++ [.blockEnd])
  | .mapping _ es => .blockMappingStart :: (pairTokens es ++ [.blockEnd])

def itemTokens : List Node → List Token
  | [] => []
  | x :: xs => .blockEntry :: (blockTokens x ++ itemTokens xs)

def pairTokens : List (Node × Node) → List Token
  | [] => []
  | (k, v) :: es => .key :: (blockTokens k ++ .value :: (blockTokens v ++ pairTokens es))

end

mutual

/-- Whether a tree has no tags and its collections are nested at most so deep. -/
def isBare : Nat → Node → Bool
  | _, .scalar t _ _ => t = .implied
  | 0, _ => false
  | d + 1, .sequence t xs => t = .implied && areBare d xs
  | d + 1, .mapping t es => t = .implied && haveBare d es

def areBare (d : Nat) : List Node → Bool
  | [] => true
  | x :: xs => isBare d x && areBare d xs

def haveBare (d : Nat) : List (Node × Node) → Bool
  | [] => true
  | (k, v) :: es => isBare d k && isBare d v && haveBare d es

end

variable {fuel level : Nat} {indentless : Bool} {rest : List Token} {anchors : List (String × Node)} {opened : List String} {handles : Handles}

lemma read_scalar (text : String) (decides : Bool) :
    read true indentless (fuel + 1) ⟨.scalar text decides :: rest, anchors, opened, level, handles⟩ =
      .ok (.scalar .implied text decides, ⟨rest, anchors, opened, level, handles⟩) := by
  cases decides <;> rfl

lemma descend_of_lt (hlevel : level < depthLimit) :
    descend ⟨rest, anchors, opened, level, handles⟩ = .ok ⟨rest, anchors, opened, level + 1, handles⟩ :=
  if_pos hlevel

lemma read_sequence (hlevel : level < depthLimit) {xs : List Node} {rest' : List Token}
    (h : readBlockSequence false fuel ⟨rest, anchors, opened, level + 1, handles⟩ [] =
      .ok (xs, ⟨rest', anchors, opened, level + 1, handles⟩)) :
    read true indentless (fuel + 1) ⟨.blockSequenceStart :: rest, anchors, opened, level, handles⟩ =
      .ok (.sequence .implied xs, ⟨rest', anchors, opened, level, handles⟩) := by
  change (descend ⟨rest, anchors, opened, level, handles⟩ >>= fun r => readBlockSequence false fuel r [] >>= _) = _
  rw [descend_of_lt hlevel, except_ok_bind, h]
  rfl

lemma read_mapping (hlevel : level < depthLimit) {es : List (Node × Node)} {rest' : List Token}
    (h : readBlockMapping fuel ⟨rest, anchors, opened, level + 1, handles⟩ [] =
      .ok (es, ⟨rest', anchors, opened, level + 1, handles⟩)) :
    read true indentless (fuel + 1) ⟨.blockMappingStart :: rest, anchors, opened, level, handles⟩ =
      .ok (.mapping .implied es, ⟨rest', anchors, opened, level, handles⟩) := by
  change (descend ⟨rest, anchors, opened, level, handles⟩ >>= fun r => readBlockMapping fuel r [] >>= _) = _
  rw [descend_of_lt hlevel, except_ok_bind, h]
  rfl

lemma blockTokens_cases (n : Node) : (∃ text decides, n.blockTokens = [.scalar text decides]) ∨
    (∃ ts, n.blockTokens = .blockSequenceStart :: ts) ∨ ∃ ts, n.blockTokens = .blockMappingStart :: ts := by
  cases n with
  | scalar t text decides => exact .inl ⟨text, decides, rfl⟩
  | sequence t xs => exact .inr (.inl ⟨_, rfl⟩)
  | mapping t es => exact .inr (.inr ⟨_, rfl⟩)

lemma orEmpty_blockTokens {ends : List Token} (f : Reader → Except Fault (Node × Reader)) (n : Node)
    (hends : ∀ t ∈ ends, t ∈ [.blockEntry, .key, .value, .blockEnd]) :
    orEmpty ends f ⟨n.blockTokens ++ rest, anchors, opened, level, handles⟩ =
      f ⟨n.blockTokens ++ rest, anchors, opened, level, handles⟩ := by
  refine if_neg fun hany => ?_
  rcases n.blockTokens_cases with ⟨text, decides, h⟩ | ⟨ts, h⟩ | ⟨ts, h⟩ <;>
    rw [h] at hany <;> simpa using hends _ (contains_iff_mem.mp hany)

lemma exists_fuel {m : Nat} (h : m + 1 ≤ fuel) : ∃ f, fuel = f + 1 ∧ m ≤ f :=
  ⟨fuel - 1, by omega, by omega⟩

mutual

theorem read_blockTokens (n : Node) (d level fuel : Nat) (indentless : Bool) (rest : List Token)
    (hn : isBare d n) (hlevel : level + d ≤ depthLimit) (hfuel : n.blockTokens.length ≤ fuel) :
    read true indentless fuel ⟨n.blockTokens ++ rest, anchors, opened, level, handles⟩ =
      .ok (n, ⟨rest, anchors, opened, level, handles⟩) := by
  match n, d with
  | .scalar t text decides, d =>
    obtain ⟨f, rfl, -⟩ := exists_fuel hfuel
    simp only [isBare, decide_eq_true_eq] at hn
    rw [hn]
    exact read_scalar text decides
  | .sequence t xs, d + 1 =>
    simp only [isBare, Bool.and_eq_true, decide_eq_true_eq] at hn
    simp only [blockTokens, length_cons, length_append, length_nil] at hfuel
    obtain ⟨f, rfl, hf⟩ := exists_fuel hfuel
    have hitems := readBlockSequence_itemTokens xs [] d (level + 1) f rest hn.2 (by omega) hf
    rw [hn.1, blockTokens, cons_append, append_assoc]
    exact read_sequence (by omega) hitems
  | .mapping t es, d + 1 =>
    simp only [isBare, Bool.and_eq_true, decide_eq_true_eq] at hn
    simp only [blockTokens, length_cons, length_append, length_nil] at hfuel
    obtain ⟨f, rfl, hf⟩ := exists_fuel hfuel
    have hentries := readBlockMapping_pairTokens es [] d (level + 1) f rest hn.2 (by omega) hf
    rw [hn.1, blockTokens, cons_append, append_assoc]
    exact read_mapping (by omega) hentries

theorem readBlockSequence_itemTokens (xs acc : List Node) (d level fuel : Nat) (rest : List Token)
    (hxs : areBare d xs) (hlevel : level + d ≤ depthLimit)
    (hfuel : (itemTokens xs).length + 1 ≤ fuel) :
    readBlockSequence false fuel ⟨itemTokens xs ++ .blockEnd :: rest, anchors, opened, level, handles⟩ acc =
      .ok (acc ++ xs, ⟨rest, anchors, opened, level, handles⟩) := by
  obtain ⟨f, rfl, hf⟩ := exists_fuel hfuel
  match xs with
  | [] => 
    rw [append_nil]
    rfl
  | x :: xs =>
    simp only [areBare, Bool.and_eq_true] at hxs
    simp only [itemTokens, length_cons, length_append] at hf
    have hx := read_blockTokens x d level f false (itemTokens xs ++ .blockEnd :: rest) hxs.1 hlevel (by omega)
    have hlater := readBlockSequence_itemTokens xs (acc ++ [x]) d level f rest hxs.2 hlevel (by omega)
    rw [itemTokens, cons_append, append_assoc]
    change (orEmpty _ (read true false f) ⟨x.blockTokens ++ _, _, _, _, _⟩ >>= _) = _
    rw [orEmpty_blockTokens _ _ (by simp), hx, except_ok_bind]
    exact hlater.trans (by rw [append_assoc]; rfl)

theorem readBlockMapping_pairTokens (es acc : List (Node × Node)) (d level fuel : Nat)
    (rest : List Token) (hes : haveBare d es) (hlevel : level + d ≤ depthLimit)
    (hfuel : (pairTokens es).length + 1 ≤ fuel) :
    readBlockMapping fuel ⟨pairTokens es ++ .blockEnd :: rest, anchors, opened, level, handles⟩ acc =
      .ok (acc ++ es, ⟨rest, anchors, opened, level, handles⟩) := by
  obtain ⟨f, rfl, hf⟩ := exists_fuel hfuel
  match es with
  | [] => 
    rw [append_nil]
    rfl
  | (k, v) :: es =>
    simp only [haveBare, Bool.and_eq_true] at hes
    simp only [pairTokens, length_cons, length_append] at hf
    have hk := read_blockTokens k d level f true
      (.value :: (v.blockTokens ++ (pairTokens es ++ .blockEnd :: rest))) hes.1.1 hlevel (by omega)
    have hv := read_blockTokens v d level f true (pairTokens es ++ .blockEnd :: rest) hes.1.2 hlevel
      (by omega)
    have hlater := readBlockMapping_pairTokens es (acc ++ [(k, v)]) d level f rest hes.2 hlevel (by omega)
    rw [pairTokens, cons_append, append_assoc, cons_append, append_assoc]
    change (orEmpty _ (read true true f) ⟨k.blockTokens ++ _, _, _, _, _⟩ >>= _) = _
    rw [orEmpty_blockTokens _ _ (by simp), hk, except_ok_bind]
    change (orEmpty _ (read true true f) ⟨v.blockTokens ++ _, _, _, _, _⟩ >>= _) = _
    rw [orEmpty_blockTokens _ _ (by simp), hv, except_ok_bind]
    exact hlater.trans (by rw [append_assoc]; rfl)

end

lemma startsDocumentPart_blockTokens (n : Node) : startsDocumentPart (n.blockTokens ++ rest) = false := by
  rcases n.blockTokens_cases with ⟨text, decides, h⟩ | ⟨ts, h⟩ | ⟨ts, h⟩ <;> rw [h] <;> rfl

lemma nextDocument_blockTokens {n : Node} (hn : isBare depthLimit n) :
    nextDocument true (.documentStart :: (n.blockTokens ++ [.streamEnd])) =
      .ok (some (n, [.streamEnd])) := by
  have hread := @read_blockTokens [] [] defaultHandles n depthLimit 0
    (4 * (.documentStart :: (n.blockTokens ++ [.streamEnd])).length + 8) false [.streamEnd] hn
    (Nat.zero_add _).le (by simp only [length_cons, length_append]; omega)
  change (if startsDocumentPart (n.blockTokens ++ [.streamEnd]) then _ else _) = _
  rw [startsDocumentPart_blockTokens, if_neg Bool.false_ne_true]
  change (read true false _ ⟨n.blockTokens ++ [.streamEnd], [], [], 0, defaultHandles⟩ >>= _) = _
  rw [hread]
  rfl

/-! ## Words -/

def word (s : String) : Node := .scalar .implied s true

/-- Whether a text starts as a word does and does not end with a line end. -/
def isWordText (s : String) : Bool :=
  startsWord (s.toList.headD '-') && s.toList.getLast? ≠ some '\n'

lemma isWordText_spec (h : isWordText s) : ∃ c cs, s.toList = c :: cs ∧
    startsWord c ∧ s.toList.getLast? ≠ some '\n' := by
  simp only [isWordText, Bool.and_eq_true, decide_eq_true_eq] at h
  cases hs : s.toList with
  | nil =>
    rw [hs] at h
    exact absurd h.1 (by decide)
  | cons c cs =>
    rw [hs] at h
    exact ⟨c, cs, rfl, h.1, h.2⟩

lemma form_of_isWordText (h : isWordText s) : (word s).form = .leaf (.ok (wordValue s)) := by
  obtain ⟨c, cs, hs, hc, hend⟩ := isWordText_spec h
  exact form_word hs hc hend

def record (es : List (String × Node)) : Node := .mapping .implied (es.map fun e => (.word e.1, e.2))

lemma entryForms_words {es : List (String × Node)} (h : ∀ e ∈ es, isWordText e.1) :
    entryForms (es.map fun e => (.word e.1, e.2)) =
      some ([], es.map fun e => (.leaf (.ok (wordValue e.1)), e.2.form)) := by
  induction es with
  | nil => rfl
  | cons e es ih =>
    obtain ⟨hk, hes⟩ := forall_mem_cons.mp h
    obtain ⟨c, cs, hs, hc, hend⟩ := isWordText_spec hk
    have htag : (word e.1).tagName = standard (if isBool e.1 then "bool"
        else if e.1 ∈ ["null", "Null", "NULL"] then "null" else "str") := impliedTag_word hs hc hend
    have hplain : (word e.1).isMerge = false ∧ (word e.1).tagName ≠ standard "value" := by
      rw [isMerge, htag]
      split <;> [decide; split <;> decide]
    rw [map_cons, entryForms, ih hes]
    simp only [Option.bind_eq_bind, Option.bind_some, hplain.1, hplain.2, Bool.false_eq_true, if_false,
      form_of_isWordText hk, map_cons]

lemma form_record {es : List (String × Node)} (keys : List String) (hkeys : es.map (·.1) = keys)
    (h : keys.all isWordText) :
    (record es).form = .map (es.map fun e => (.leaf (.ok (wordValue e.1)), e.2.form)) := by
  have hentries : entryForms (es.map fun e => (.word e.1, e.2)) = _ := entryForms_words fun e he =>
    all_eq_true.mp h e.1 (hkeys ▸ mem_map_of_mem he)
  have hfilling : filling? (record es).tagName = some .map := by rfl
  rw [record] at hfilling ⊢
  rw [form]
  simp only [hfilling, hentries, nil_append]

lemma form_sequence (xs : List Node) : (Node.sequence .implied xs).form = .list (forms xs) := by
  have hfilling : filling? (Node.sequence .implied xs).tagName = some .list := by rfl
  rw [form]
  simp only [hfilling]

lemma forms_words {words : List String} (h : ∀ s ∈ words, isWordText s) :
    forms (words.map word) = words.map fun s => .leaf (.ok (wordValue s)) := by
  induction words with
  | nil => rfl
  | cons s words ih =>
    obtain ⟨hs, hwords⟩ := forall_mem_cons.mp h
    rw [map_cons, forms, form_of_isWordText hs, ih hwords, map_cons]

end Node

lemma load_of_blockTokens {n : Node} (hn : Node.isBare Node.depthLimit n)
    (hs : Token.ofText s = Token.documentStart :: (n.blockTokens ++ [Token.streamEnd])) :
    load s = n.document := by
  rw [load, hs, Node.nextDocument_blockTokens hn]
  rfl

end AssetCatalog.Yaml
