import AssetCatalog.Proofs.ImageEdits
import AssetCatalog.Proofs.ImageTrees
import AssetCatalog.Proofs.Run

/-!
# Source files with other tags

Such a file is still source, and its tree is that with the other images.
-/

namespace AssetCatalog.Image

open Asset Source Source.Token Text List ImageLocation Stmt Token

variable {l m : ImageLocation} {found : List ImageLocation} {tag : String}

def retag (family tag image : String) : String :=
  if takesTag family image then retagged tag image else image

lemma comesBefore_iff : comesBefore l m ↔ l.span.start ≤ m.span.start := by
  simp [comesBefore, Position.le_iff]

lemma pairwise_mergeSort_comesBefore (ls : List ImageLocation) :
    (ls.mergeSort comesBefore).Pairwise fun l m => comesBefore l m := by
  apply List.pairwise_mergeSort
  · intro a b c hab hbc
    rw [comesBefore_iff] at hab hbc ⊢
    exact hab.trans hbc
  · intro a b
    rw [Bool.or_eq_true, comesBefore_iff, comesBefore_iff]
    exact le_total _ _

def ordered (family : String) (found : List ImageLocation) : List ImageLocation :=
  (found.filter fun l => takesTag family l.image).mergeSort comesBefore

lemma mem_ordered {family : String} :
    l ∈ ordered family found ↔ l ∈ found ∧ takesTag family l.image := by
  rw [ordered, mem_mergeSort, mem_filter]

/-- A source text, what it is read as, and its locations; the images of the family are written out. -/
structure Suitable (p : Path) (family : String) (text : String) (ts : List Token) (body : List Stmt)
    (found : List ImageLocation) : Prop where
  tokens : ofText text.toList = .ok ts
  parse : parse text = .ok body
  locations : imageLocations p body = .ok found
  feeds : HasFeeds text.toList
  written : ∀ l ∈ ordered family found, WrittenOut text.toList l

lemma overrideText_of_locations {p : Path} {family text : String} {body : List Stmt} (htag : isTag tag) (hparse : parse text = .ok body)
    (hfound : imageLocations p body = .ok found) (hsome : ordered family found ≠ []) :
    overrideText p tag family text =
      ((ordered family found).reverse.foldlM (replaceAt p tag) (lineList text.toList) >>= fun lines =>
        pure (some (String.ofList lines.flatten))) := by
  have hchosen : (found.filter fun l => takesTag family l.image).isEmpty = false := by
    rw [isEmpty_eq_false_iff]
    intro hnil
    exact hsome (by rw [ordered, hnil, mergeSort_nil])
  rw [overrideText, checkTag_eq_ok.mpr htag, except_ok_bind, hparse, except_ok_bind, hfound, except_ok_bind]
  change (if (found.filter fun l => takesTag family l.image).isEmpty = true then pure none
    else (ordered family found).reverse.foldlM (replaceAt p tag) (lineList text.toList) >>= fun lines =>
      pure (some (String.ofList lines.flatten))) = _
  rw [hchosen, if_neg Bool.false_ne_true]

namespace Suitable

variable {p : Path} {family text : String} {ts : List Token} {body : List Stmt}
  {found : List ImageLocation} (h : Suitable p family text ts body found)
include h

lemma inOrder : Ordered ts := (ofText_eq_ok_iff.mp h.tokens).2.ordered

lemma count_span_le_spans (s : Span) :
    (found.map ImageLocation.span).count s ≤ (body.flatMap Stmt.spans).count s := by
  have hperm := (perm_imagesOf h.locations).map Prod.snd
  rw [map_map] at hperm
  have hbody := (standAt_definitionsIn 0 body).count_le s
  rwa [← hperm.count_eq s] at hbody

lemma count_spans_le_places (s : Span) : (body.flatMap spans).count s ≤ (places false ts).count s := by
  exact count_spans_le h.tokens h.parse s

lemma mem_places (hl : l ∈ found) : l.span ∈ places false ts := by
  have hpos : 0 < (found.map ImageLocation.span).count l.span :=
    count_pos_iff.mpr (mem_map_of_mem hl)
  have hbody := h.count_span_le_spans l.span
  have hplaces := h.count_spans_le_places l.span
  exact count_pos_iff.mp (by omega)

lemma count_spans_le_one {s : Span} (hs : s.start < s.stop) : (body.flatMap spans).count s ≤ 1 :=
  (h.count_spans_le_places s).trans (count_places_le_one h.inOrder hs)

lemma eq_of_span_eq (hl : l ∈ found) (hm : m ∈ found) (hspan : l.span = m.span)
    (hs : l.span.start < l.span.stop) : l = m := by
  have hcount := (h.count_span_le_spans l.span).trans (h.count_spans_le_one hs)
  rw [List.count, countP_map, countP_eq_length_filter] at hcount
  have hl' : l ∈ found.filter ((· == l.span) ∘ ImageLocation.span) := by simp [hl]
  have hm' : m ∈ found.filter ((· == l.span) ∘ ImageLocation.span) := by simp [hm, hspan]
  obtain ⟨a, ha⟩ := length_eq_one_iff.mp (le_antisymm hcount (length_pos_of_mem hl'))
  rw [ha, mem_singleton] at hl' hm'
  rw [hl', hm']

lemma ready : ∀ l ∈ ordered family found, Ready text.toList ts l := by
  intro l hl
  obtain ⟨hfound, htakes⟩ := mem_ordered.mp hl
  have hwritten := h.written l hl
  rw [takesTag, Bool.and_eq_true] at htakes
  have hplace := h.mem_places hfound
  exact ⟨htakes.2, hwritten, exists_token_of_mem_places h.inOrder hplace hwritten.start_lt_stop⟩

lemma eq_of_mem_ordered (hl : l ∈ ordered family found)
    (hm : m ∈ ordered family found) (hspan : l.span = m.span) : l = m :=
  h.eq_of_span_eq (mem_ordered.mp hl).1 (mem_ordered.mp hm).1 hspan (h.written l hl).start_lt_stop

lemma token_mem (hl : l ∈ ordered family found) :
    ⟨.quote { body := l.image.toList }, l.span⟩ ∈ ts := by
  obtain ⟨before, quote, long, behind, hstands⟩ := h.written l hl
  have hzero : '\x00' ∉ l.image.toList := fun hc =>
    (ofText_eq_ok_iff.mp h.tokens).1 (hstands.mem_text hc)
  have hts := h.tokens
  rw [hstands.text_eq] at hts
  have htoken := (h.ready l hl).token
  rw [hstands.start] at htoken
  obtain ⟨front, back, -, hfront, -⟩ :=
    ofText_edit hstands.isQuote hstands.plain hstands.plain hts hzero htoken
  rw [hfront, ← hstands.span_literalToken]
  exact mem_append_right _ mem_cons_self

lemma nodup_span_ordered : ((ordered family found).map ImageLocation.span).Nodup := by
  rw [nodup_iff_count_le_one]
  intro s
  by_cases hs : s ∈ (ordered family found).map ImageLocation.span
  · obtain ⟨l, hl, rfl⟩ := mem_map.mp hs
    have hperm : ((ordered family found).map ImageLocation.span).Perm
        ((found.filter fun l => takesTag family l.image).map ImageLocation.span) :=
      (mergeSort_perm _ _).map _
    have hsub : ((found.filter fun l => takesTag family l.image).map ImageLocation.span).Sublist
        (found.map ImageLocation.span) := filter_sublist.map _
    calc ((ordered family found).map ImageLocation.span).count l.span
        = ((found.filter fun l => takesTag family l.image).map ImageLocation.span).count l.span :=
          hperm.count_eq _
      _ ≤ (found.map ImageLocation.span).count l.span := hsub.count_le _
      _ ≤ (body.flatMap spans).count l.span := h.count_span_le_spans _
      _ ≤ 1 := h.count_spans_le_one (h.written l hl).start_lt_stop
  · rw [count_eq_zero.mpr hs]
    exact Nat.zero_le 1

lemma pairwise_ordered :
    (ordered family found).Pairwise fun l m => l.span.stop ≤ m.span.start := by
  have hsorted : (ordered family found).Pairwise fun l m => comesBefore l m :=
    pairwise_mergeSort_comesBefore _
  have hdistinct := pairwise_map.mp h.nodup_span_ordered
  refine (hsorted.and hdistinct).imp_of_mem fun {l m} hl hm hlm => ?_
  have hne : (⟨.quote { body := l.image.toList }, l.span⟩ : Token) ≠
      ⟨.quote { body := m.image.toList }, m.span⟩ := fun heq => hlm.2 (congrArg Token.span heq)
  exact h.inOrder.stop_le_start (h.token_mem hl) (h.token_mem hm) hne (h.written m hm).start_lt_stop
    (comesBefore_iff.mp hlm.1)

lemma retagging_span (hl : l ∈ ordered family found) (tag : String) :
    retagging tag (ordered family found) l.span = some (retagged tag l.image) := by
  cases hr : retagging tag (ordered family found) l.span with
  | none => exact absurd rfl (retagging_eq_none_iff.mp hr l hl)
  | some v =>
    obtain ⟨m, hm, rfl⟩ := Option.map_eq_some_iff.mp hr
    have hspan : m.span = l.span := by simpa using find?_some hm
    rw [h.eq_of_mem_ordered (mem_of_find?_eq_some hm) hl hspan]

omit h in
lemma exists_of_retagging {s : Span}
    (hs : retagging tag (ordered family found) s ≠ none) : ∃ l ∈ ordered family found, l.span = s := by
  by_contra hnone
  exact hs (retagging_eq_none_iff.mpr fun l hl heq => hnone ⟨l, hl, heq⟩)

lemma lone (htag : isTag tag) : Lone (retagging tag (ordered family found)) ts := by
  have htoken {l : ImageLocation} (hl : l ∈ ordered family found) {t : Token} (ht : t ∈ ts)
      (hroom : t.span.start < t.span.stop) (hstart : l.span.start = t.span.start) :
      t = ⟨.quote { body := l.image.toList }, l.span⟩ :=
    h.inOrder.eq_of_start_eq ht (h.token_mem hl) hstart.symm hroom (h.written l hl).start_lt_stop
  refine @lone_of_places _ false _ h.inOrder ?_ ?_ ?_
  · intro t ht v hv
    obtain ⟨l, hl, hspan⟩ := exists_of_retagging (by rw [hv]; exact Option.some_ne_none v)
    have hroom := (h.written l hl).start_lt_stop
    obtain ⟨before, quote, long, behind, hstands⟩ := h.written l hl
    rw [← hspan, h.retagging_span hl, Option.some.injEq] at hv
    subst hv
    have hnew := plain_retagged htag (h.ready l hl).main hstands.isQuote hstands.plain
    refine ⟨hnew.2.2.1, l.image.toList, ?_, hstands.plain.2.2.1⟩
    rw [htoken hl ht (hspan ▸ hroom) (congrArg Span.start hspan)]
  · intro t ht hσ
    obtain ⟨l, hl, hspan⟩ := exists_of_retagging hσ
    rw [← hspan]
    exact h.mem_places (mem_ordered.mp hl).1
  · intro t ht hq s hσ hstart
    obtain ⟨l, hl, rfl⟩ := exists_of_retagging hσ
    rw [htoken hl ht (h.inOrder.lt t ht hq) hstart]

lemma renames (tag : String) : Renames (retagging tag (ordered family found)) (retag family tag)
    (imagesOf (definitionsIn 0 body)) (body.flatMap spans) where
  value i hi := by
    obtain ⟨l, hl, rfl⟩ := mem_map.mp ((perm_imagesOf h.locations).mem_iff.mpr hi)
    rw [retag, Change.value]
    by_cases htakes : takesTag family l.image
    · rw [if_pos htakes, h.retagging_span (mem_ordered.mpr ⟨hl, htakes⟩)]
    · have hnone : retagging tag (ordered family found) l.span = none := by
        by_contra hσ
        obtain ⟨m, hm, hspan⟩ := exists_of_retagging hσ
        obtain ⟨hmfound, hmtakes⟩ := mem_ordered.mp hm
        rw [h.eq_of_span_eq hmfound hl hspan (h.written m hm).start_lt_stop] at hmtakes
        exact htakes hmtakes
      rw [if_neg htakes, hnone]
  only s hs := by
    obtain ⟨l, hl, rfl⟩ := exists_of_retagging hs
    have hmem : (l.image, l.span) ∈ imagesOf (definitionsIn 0 body) :=
      (perm_imagesOf h.locations).mem_iff.mp (mem_map_of_mem (mem_ordered.mp hl).1)
    have hpos : 0 < ((imagesOf (definitionsIn 0 body)).map Prod.snd).count l.span :=
      count_pos_iff.mpr (mem_map_of_mem hmem)
    have hone := h.count_spans_le_one (h.written l hl).start_lt_stop
    omega

lemma exists_overrideText (htag : isTag tag) (hsome : ordered family found ≠ []) :
    ∃ new ts' body', overrideText p tag family text = .ok (some new) ∧
      Token.ofText new.toList = .ok ts' ∧
      ts'.map (Token.forget unchanged) = ts.map (Token.forget (retagging tag (ordered family found))) ∧
      Stmt.parse new = .ok body' ∧
      body'.map (Stmt.forget unchanged) =
        (mapImagesIn (retag family tag) body).map (Stmt.forget unchanged) := by
  obtain ⟨text', ts', hfold, hts', hforget⟩ :=
    foldlM_replaceAt htag p h.feeds h.tokens h.ready h.pairwise_ordered
  have hnew : Token.ofText (String.ofList text').toList = .ok ts' := by rwa [String.toList_ofList]
  obtain ⟨body', hparse, hbody⟩ := Stmt.exists_parse_eq h.tokens hnew (h.lone htag) hforget h.parse
  refine ⟨String.ofList text', ts', body', ?_, hnew, hforget, hparse, ?_⟩
  · rw [overrideText_of_locations htag h.parse h.locations hsome, hfold, except_ok_bind, flatten_lineList]
    rfl
  · have htree := forget_mapImagesIn 0 body (h.renames tag)
    rw [forgetBody_eq, forgetBody_eq] at htree
    rw [hbody, htree]

end Suitable

lemma exists_write_of_read {t : Tree} {p : Location} {c : Content} (h : t.read p = .ok c) (d : Content) :
    ∃ u, t.write p d = .ok u := by
  obtain ⟨e, he, h⟩ := except_bind_eq_ok.mp h
  obtain ⟨l, hl, he⟩ := except_bind_eq_ok.mp he
  rw [Tree.write, hl, except_ok_bind]
  cases hentry : t.entry? l with
  | none =>
    rw [hentry] at he
    cases he
  | some entry =>
    rw [hentry] at he
    cases he
    cases e with
    | file => exact ⟨_, rfl⟩
    | folder => cases h

lemma overrideFile_eq {p : Path} {family text new : String} {site : Site} {w : World}
    (htag : isTag tag) (hread : Run.readText p site w = (.ok text, w))
    (htext : overrideText p tag family text = .ok (some new)) (trial : Bool) :
    (overrideFile p tag family trial site w).1 = .ok (some new) := by
  have hfile : ∃ c, w.tree.read (site.home.join p).names = .ok c := by
    rw [Run.readText_apply, Prod.mk.injEq] at hread
    obtain ⟨c, hc, -⟩ := except_bind_eq_ok.mp hread.1
    exact ⟨c, hc⟩
  obtain ⟨c, hc⟩ := hfile
  obtain ⟨u, hu⟩ := exists_write_of_read hc (.text new)
  simp only [overrideFile, Run.bind_apply, Run.ofExcept_apply, checkTag_eq_ok.mpr htag, hread,
    htext]
  cases trial with
  | true => rfl
  | false => simp [Run.writeText, hu]

/-- The tags of a family are replaced in a file whose images are written out. -/
theorem overrideFile_retags {p : Path} {tag family text : String} {site : Site} {w : World}
    {body : List Stmt} {found : List ImageLocation} (trial : Bool) (htag : isTag tag = true)
    (hread : Run.readText p site w = (.ok text, w)) (hparse : Stmt.parse text = .ok body)
    (hfound : imageLocations p body = .ok found)
    (hsome : ∃ l ∈ found, takesTag family l.image = true)
    (hfeeds : HasFeeds text.toList)
    (hwritten : ∀ l ∈ found, takesTag family l.image = true → WrittenOut text.toList l) :
    ∃ new body' ts ts', (overrideFile p tag family trial site w).1 = .ok (some new) ∧
      Stmt.parse new = .ok body' ∧
      body'.map (Stmt.forget unchanged) =
        (mapImagesIn (retag family tag) body).map (Stmt.forget unchanged) ∧
      Token.ofText text.toList = .ok ts ∧ Token.ofText new.toList = .ok ts' ∧
      ts'.map (Token.forget unchanged) =
        ts.map (Token.forget (retagging tag (ordered family found))) := by
  obtain ⟨ts, hts, -⟩ := Stmt.parse_eq_ok.mp hparse
  have hsuitable : Suitable p family text ts body found :=
    ⟨hts, hparse, hfound, hfeeds, fun l hl => hwritten l (mem_ordered.mp hl).1 (mem_ordered.mp hl).2⟩
  have hne : ordered family found ≠ [] := by
    obtain ⟨l, hl, htakes⟩ := hsome
    exact ne_nil_of_mem (mem_ordered.mpr ⟨hl, htakes⟩)
  obtain ⟨new, ts', body', htext, hts', hforget, hparse', hbody⟩ :=
    hsuitable.exists_overrideText htag hne
  exact ⟨new, body', ts, ts', overrideFile_eq htag hread htext trial, hparse', hbody, hts, hts', hforget⟩

def sourceFile (text : String) : World where
  tree := { folders := [[]], files := [(["asset.py"], .text text)] }

lemma hasFeeds_of_all {text : List Char} (h : (text.all fun c => !isLineEnd c || c = '\n') = true) :
    HasFeeds text := by
  intro c hc hend
  simpa [hend] using all_eq_true.mp h c hc

lemma readText_sourceFile {text : String} (h : HasFeeds text.toList) :
    Run.readText ⟨"", ["asset.py"]⟩ Run.rootSite (sourceFile text) = (.ok text, sourceFile text) := by
  have hunified : unifyNewlines text.toList = text.toList :=
    unifyNewlines_eq_self fun hr => absurd (h _ hr (by decide)) (by decide)
  have hsame : String.ofList (unifyNewlines text.toList) = text := by rw [hunified, String.ofList_toList]
  exact congrArg (Except.ok ·, sourceFile text) hsame

/-- The locations of a text whose definitions stand in the order of their depths. -/
def locationsOf? (p : Path) (text : String) : Option (List ImageLocation) := do
  let body ← (parse text).toOption
  let ds := definitionsIn 0 body
  guard (ds.Pairwise fun a b => decide (a.1 ≤ b.1) = true)
  let named := (ds.map Prod.snd).flatMap fun d =>
    (d.decorators.filter isAssetDecorator).filterMap fun e =>
      (keywordOf "base_image" e).map fun v => (d.name, v)
  (named.mapM fun (f, v) => imageLocation p f v).toOption

lemma exists_of_locationsOf? {p : Path} {text : String} (h : locationsOf? p text = some found) :
    ∃ body, parse text = .ok body ∧ imageLocations p body = .ok found := by
  have hok {α : Type} {x : Except Fault α} {a : α} (h : x.toOption = some a) : x = .ok a := by
    cases x with
    | error e => cases h
    | ok b => exact congrArg Except.ok (Option.some.inj h)
  simp only [locationsOf?, Option.bind_eq_bind, Option.bind_eq_some_iff, Option.guard_eq_some'] at h
  obtain ⟨body, hparse, -, hsorted, hfound⟩ := h
  refine ⟨body, hok hparse, ?_⟩
  rw [imageLocations, definitions, mergeSort_of_pairwise hsorted]
  exact hok hfound

def pairSource : String :=
  "@dsl.component(base_image=\'\'\'q/p-a:main\'\'\')\ndef a(): pass\n" ++
    "@dsl.pipeline(name=\"b\", base_image=\"q/p-b:main\")\ndef b(): return \"q/p-b:main\"\n"

set_option maxRecDepth 4000 in
lemma pairSource_facts : locationsOf? ⟨"", ["asset.py"]⟩ pairSource =
      some [⟨"a", "q/p-a:main", ⟨⟨1, 26⟩, ⟨1, 42⟩⟩⟩, ⟨"b", "q/p-b:main", ⟨⟨3, 35⟩, ⟨3, 47⟩⟩⟩] ∧
    (pairSource.toList.all fun c => !isLineEnd c || c = '\n') = true ∧
    StandsAt pairSource.toList ⟨"a", "q/p-a:main", ⟨⟨1, 26⟩, ⟨1, 42⟩⟩⟩ (pairSource.toList.take 26) '\''
      true (pairSource.toList.drop 42) ∧
    StandsAt pairSource.toList ⟨"b", "q/p-b:main", ⟨⟨3, 35⟩, ⟨3, 47⟩⟩⟩ (pairSource.toList.take 93) '"'
      false (pairSource.toList.drop 105) := by
  -- with the characters of the literals the kernel has nothing to decode
  have hchars : pairSource.toList = _ :=
    String.toList_append.trans (congrArg₂ (· ++ ·) String.toList_ofList String.toList_ofList)
  rw [locationsOf?, Stmt.parse, hchars]
  decide +kernel

theorem overrideFile_retags_pair : ∃ new body body', Stmt.parse pairSource = .ok body ∧
      (overrideFile ⟨"", ["asset.py"]⟩ "v1" "q/p" false Run.rootSite (sourceFile pairSource)).1 =
        .ok (some new) ∧
      Stmt.parse new = .ok body' ∧
      body'.map (Stmt.forget unchanged) =
        (mapImagesIn (retag "q/p" "v1") body).map (Stmt.forget unchanged) := by
  obtain ⟨hlocations, hall, hfirst, hsecond⟩ := pairSource_facts
  obtain ⟨body, hparse, hfound⟩ := exists_of_locationsOf? hlocations
  have hfeeds := hasFeeds_of_all hall
  have hwritten : WrittenOut pairSource.toList ⟨"a", "q/p-a:main", ⟨⟨1, 26⟩, ⟨1, 42⟩⟩⟩ ∧
      WrittenOut pairSource.toList ⟨"b", "q/p-b:main", ⟨⟨3, 35⟩, ⟨3, 47⟩⟩⟩ :=
    ⟨⟨_, _, _, _, hfirst⟩, _, _, _, _, hsecond⟩
  obtain ⟨new, body', ts, ts', hrun, hparse', hbody, -⟩ :=
    @overrideFile_retags ⟨"", ["asset.py"]⟩ "v1" "q/p" pairSource Run.rootSite (sourceFile pairSource) body _
      false (by decide +kernel) (readText_sourceFile hfeeds) hparse hfound
      ⟨_, mem_cons_self, by decide +kernel⟩ hfeeds (by simp [hwritten])
  exact ⟨new, body, body', hparse, hrun, hparse', hbody⟩

def rawSource : String := "@dsl.component(base_image=r\"q/p-a:main\")\ndef a(): pass\n"

/-- The mark of a raw literal is taken for its quote, and what is written is no source. -/
theorem overrideFile_raw_unreadable : ∃ new body, Stmt.parse rawSource = .ok body ∧
      (overrideFile ⟨"", ["asset.py"]⟩ "v1" "q/p" false Run.rootSite (sourceFile rawSource)).1 =
        .ok (some new) ∧
      ∀ body', Stmt.parse new ≠ .ok body' := by
  have hfacts : locationsOf? ⟨"", ["asset.py"]⟩ rawSource =
        some [⟨"a", "q/p-a:main", ⟨⟨1, 26⟩, ⟨1, 39⟩⟩⟩] ∧
      (rawSource.toList.all fun c => !isLineEnd c || c = '\n') = true := by
    have hchars : rawSource.toList = _ := String.toList_ofList
    rw [locationsOf?, Stmt.parse, hchars]
    decide +kernel
  obtain ⟨body, hparse, hfound⟩ := exists_of_locationsOf? hfacts.1
  have hordered : ordered "q/p" [⟨"a", "q/p-a:main", ⟨⟨1, 26⟩, ⟨1, 39⟩⟩⟩] =
      [⟨"a", "q/p-a:main", ⟨⟨1, 26⟩, ⟨1, 39⟩⟩⟩] := by
    rw [ordered, filter_cons_of_pos (by decide +kernel), filter_nil, mergeSort_singleton]
  have htext : overrideText ⟨"", ["asset.py"]⟩ "v1" "q/p" rawSource =
      .ok (some "@dsl.component(base_image=rq/p-a:v1r)\ndef a(): pass\n") := by
    rw [overrideText_of_locations (by decide +kernel) hparse hfound (by rw [hordered]; simp), hordered]
    decide +kernel
  have hrun := overrideFile_eq (by decide +kernel) (readText_sourceFile (hasFeeds_of_all hfacts.2)) htext
    false
  refine ⟨_, body, hparse, hrun, fun body' hbody' => ?_⟩
  have hnone : (Stmt.parse "@dsl.component(base_image=rq/p-a:v1r)\ndef a(): pass\n").toOption.isNone =
      true := by decide +kernel
  rw [hbody'] at hnone
  cases hnone

end AssetCatalog.Image
