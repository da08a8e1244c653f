import AssetCatalog.Image.Override
import AssetCatalog.Proofs.ImageReference
import AssetCatalog.Proofs.SourceScan

/-!
# Other tags for images

What becomes of lines and tokens when an image that is written out gets another tag.
-/

namespace AssetCatalog.Image

open Asset Source Source.Token Text List Token

variable {c : Char}
variable {l : ImageLocation} {text : List Char} {ls : List ImageLocation} {tag : String}

/-- The image with the tag in place of its last five characters, which are `:main`. -/
def retagged (tag image : String) : String := Text.take (image.length - 5) image ++ ":" ++ tag

lemma toList_retagged {image : String} (h : endsWith image ":main") (tag : String) :
    ∃ name, image.toList = name ++ ":main".toList ∧
      (retagged tag image).toList = name ++ ':' :: tag.toList := by
  rw [endsWith, isSuffixOf_iff_suffix] at h
  obtain ⟨name, hname⟩ := h
  have hlength : image.length - 5 = name.length := by
    rw [← String.length_toList, ← hname]
    simp
  simp [retagged, hlength, Text.take, ← hname]

lemma withTag_eq {image : String} (h : endsWith image ":main") (tag : String) :
    withTag image tag = retagged tag image := by
  obtain ⟨name, himage, hnew⟩ := toList_retagged h tag
  apply String.toList_injective
  rw [hnew, withTag, cutLast?, himage]
  simp

/-- Where a location stands in a text: its image is written out between quotes. -/
structure StandsAt (text : List Char) (l : ImageLocation) (before : List Char) (quote : Char)
    (long : Bool) (behind : List Char) : Prop where
  text_eq : text = before ++ (literal quote long l.image.toList ++ behind)
  isQuote : isQuoteChar quote = true
  plain : Plain quote l.image.toList
  /-- Up to there, a character of the line is a byte. -/
  ascii : ∀ c ∈ lastLine before ++ l.image.toList, c.toNat < 128
  start : l.span.start = advance ⟨1, 0⟩ before
  stop : l.span.stop = advance ⟨1, 0⟩ (before ++ literal quote long l.image.toList)

lemma standsAt_iff {before behind : List Char} {quote : Char} {long : Bool} :
    StandsAt text l before quote long behind ↔
      text = before ++ (literal quote long l.image.toList ++ behind) ∧
      isQuoteChar quote ∧ Plain quote l.image.toList ∧
      ((lastLine before ++ l.image.toList).all fun c => c.toNat < 128) ∧
      l.span = ⟨advance ⟨1, 0⟩ before, advance ⟨1, 0⟩ (before ++ literal quote long l.image.toList)⟩ := by
  simp only [all_eq_true, decide_eq_true_eq]
  constructor
  · intro h
    exact ⟨h.text_eq, h.isQuote, h.plain, h.ascii, by rw [← h.start, ← h.stop]⟩
  · rintro ⟨htext, hquote, hplain, hascii, hspan⟩
    exact ⟨htext, hquote, hplain, hascii, by rw [hspan], by rw [hspan]⟩

instance (text : List Char) (l : ImageLocation) (before : List Char) (quote : Char) (long : Bool)
    (behind : List Char) : Decidable (StandsAt text l before quote long behind) :=
  decidable_of_iff _ standsAt_iff.symm

/-- The image of a location is written out in the text. -/
def WrittenOut (text : List Char) (l : ImageLocation) : Prop :=
  ∃ before quote long behind, StandsAt text l before quote long behind

lemma replaceAt_of_line {p : Path} {lines rest : List (List Char)} {line quote : List Char}
    (hline : l.span.start.line = l.span.stop.line)
    (hdrop : lines.drop (l.span.start.line - 1) = line :: rest)
    (hquote : quoteAt line l.span.start.column = some quote) :
    replaceAt p tag lines l = .ok (lines.take (l.span.start.line - 1) ++
      (line.take l.span.start.column ++ quote ++ (withTag l.image tag).toList ++ quote ++
        line.drop l.span.stop.column) :: rest) := by
  unfold replaceAt
  rw [if_neg (not_not.mpr hline)]
  simp only [hdrop, hquote]
  rfl

lemma isLineEnd_literal {quote : Char} (hquote : isQuoteChar quote) (long : Bool)
    {body : List Char} (hbody : ∀ c ∈ body, isLineEnd c = false) :
    ∀ c ∈ literal quote long body, isLineEnd c = false := by
  intro c hc
  obtain rfl | hc := mem_literal.mp hc
  · rcases eq_of_isQuoteChar hquote with rfl | rfl <;> decide
  · exact hbody c hc

namespace StandsAt

variable {text before behind : List Char} {l : ImageLocation} {quote : Char} {long : Bool}
  (h : StandsAt text l before quote long behind)
include h

lemma quote_ascii : quote.toNat < 128 := by
  rcases eq_of_isQuoteChar h.isQuote with rfl | rfl <;> decide

lemma feed_notMem : '\n' ∉ literal quote long l.image.toList := by
  rw [mem_literal, not_or]
  exact ⟨Ne.symm (ne_of_isQuoteChar h.isQuote rfl), h.plain.2.2.2⟩

lemma start_eq : l.span.start = ⟨1 + before.count '\n', (lastLine before).length⟩ := by
  rw [h.start, advance_start, sum_utf8Size fun c hc => h.ascii c (mem_append_left _ hc)]

lemma stop_eq : l.span.stop =
    ⟨1 + before.count '\n', (lastLine before).length + (literal quote long l.image.toList).length⟩ := by
  have hascii : ∀ c ∈ literal quote long l.image.toList, c.toNat < 128 := by
    intro c hc
    obtain rfl | hc := mem_literal.mp hc
    · exact h.quote_ascii
    · exact h.ascii c (mem_append_right _ hc)
  rw [h.stop, advance_append, ← h.start, h.start_eq, advance_inline h.feed_notMem, sum_utf8Size hascii]

lemma span_literalToken :
    (literalToken (advance ⟨1, 0⟩ before) quote long l.image.toList).span = l.span := by
  rw [literalToken, ← advance_append, ← h.start, ← h.stop]

lemma quoteAt_eq (v : List Char) :
    quoteAt (lastLine before ++ literal quote long l.image.toList ++ v) (lastLine before).length =
      some (List.replicate (quoteSize long) quote) := by
  obtain ⟨x, w, hw⟩ := exists_cons_of_ne_nil h.plain.1
  have hx : x ≠ quote := by
    rintro rfl
    exact h.plain.2.1 (hw ▸ mem_cons_self)
  rw [quoteAt, append_assoc, drop_left, hw]
  cases long with
  | false =>
    have hmore : literal quote false (x :: w) ++ v = quote :: x :: (w ++ ([quote] ++ v)) := by
      simp [literal, quoteSize]
    rw [hmore]
    cases w <;> simp [quoteSize, hx]
  | true =>
    have hmore : literal quote true (x :: w) ++ v =
        quote :: quote :: quote :: (x :: w ++ (List.replicate 3 quote ++ v)) := by
      simp [literal, quoteSize]
    rw [hmore]
    simp [quoteSize]

lemma mem_text (hc : c ∈ l.image.toList) : c ∈ text := by
  rw [h.text_eq]
  exact mem_append_right _ (mem_append_left _ (mem_literal.mpr (.inr hc)))

lemma isLineEnd_image (hfeeds : HasFeeds text) : ∀ c ∈ l.image.toList, isLineEnd c = false := by
  intro c hc
  by_contra hend
  obtain rfl := hfeeds c (h.mem_text hc) (by simpa using hend)
  exact h.plain.2.2.2 hc

lemma replaceAt_eq (hfeeds : HasFeeds text) (p : Path) {tag : String}
    (htag : ∀ c ∈ (withTag l.image tag).toList, isLineEnd c = false) :
    replaceAt p tag (lineList text) l =
      .ok (lineList (before ++ (literal quote long (withTag l.image tag).toList ++ behind))) := by
  have hparts := hfeeds
  rw [h.text_eq, hasFeeds_append, hasFeeds_append] at hparts
  obtain ⟨front, v, rest, hlength, hlines⟩ := lineList_inline hparts.1 hparts.2.2
  have hindex : l.span.start.line - 1 = front.length := by
    rw [h.start_eq, hlength]
    exact Nat.add_sub_cancel_left 1 _
  have hline : l.span.start.line = l.span.stop.line := by
    rw [h.start_eq, h.stop_eq]
  have hcolumn : l.span.start.column = (lastLine before).length := by
    rw [h.start_eq]
  have hend : l.span.stop.column =
      (lastLine before ++ literal quote long l.image.toList).length := by
    rw [h.stop_eq, length_append]
  have hold : lineList text =
      front ++ (lastLine before ++ literal quote long l.image.toList ++ v) :: rest := by
    rw [h.text_eq]
    exact hlines _ (literal_ne_nil _ _ _) (isLineEnd_literal h.isQuote long (h.isLineEnd_image hfeeds))
  rw [hold, hlines _ (literal_ne_nil _ _ _)
    (isLineEnd_literal h.isQuote long htag), replaceAt_of_line hline
    (by rw [hindex, drop_left]) (by rw [hcolumn]; exact h.quoteAt_eq v)]
  rw [hindex, hcolumn, hend, take_left, drop_left, append_assoc (lastLine before),
    take_left]
  simp only [literal, append_assoc]

end StandsAt

lemma isInner_range (h : isInner c) : 45 ≤ c.toNat ∧ c.toNat ≤ 122 := by
  simp only [isInner, isWordChar, Char.isAlphanum, Char.isAlpha, Char.isUpper, Char.isLower, Char.isDigit,
    Bool.or_eq_true, Bool.and_eq_true, decide_eq_true_eq, ge_iff_le, UInt32.le_iff_toNat_le] at h
  obtain ((((h | h) | h) | rfl) | rfl) | rfl := h
  all_goals first | decide | (simp at h; omega)

lemma isInner_spec (h : isInner c) :
    isLineEnd c = false ∧ isQuoteChar c = false ∧ c ≠ '\\' ∧ c ≠ '\x00' := by
  obtain ⟨hlow, hhigh⟩ := isInner_range h
  refine ⟨?_, ?_, ?_, ?_⟩
  · simp only [isLineEnd, Bool.or_eq_false_iff, Bool.and_eq_false_iff, decide_eq_false_iff_not]
    omega
  · by_contra hq
    rcases eq_of_isQuoteChar (by simpa using hq) with rfl | rfl <;> simp at hlow
  · rintro rfl
    cases h
  · rintro rfl
    cases h

section Retagged

variable {tag image : String} (htag : isTag tag = true) (hmain : endsWith image ":main" = true)
include htag hmain

lemma mem_retagged (hc : c ∈ (retagged tag image).toList) : c ∈ image.toList ∨ isInner c := by
  obtain ⟨name, himage, hnew⟩ := toList_retagged hmain tag
  rw [hnew, mem_append, mem_cons] at hc
  obtain hc | rfl | hc := hc
  · exact .inl (himage ▸ mem_append_left _ hc)
  · exact .inl (himage ▸ mem_append_right _ (by decide))
  · exact .inr ((isTag_iff.mp htag).2.2.1 c hc)

lemma plain_retagged {quote : Char} (hquote : isQuoteChar quote) (h : Plain quote image.toList) :
    Plain quote (retagged tag image).toList := by
  have hinner {c : Char} (hc : c ∉ image.toList) (hinner : isInner c = false) :
      c ∉ (retagged tag image).toList := by
    intro hmem
    obtain hmem | hin := mem_retagged htag hmain hmem
    · exact hc hmem
    · rw [hinner] at hin
      cases hin
  refine ⟨?_, hinner h.2.1 ?_, hinner h.2.2.1 (by decide), hinner h.2.2.2 (by decide)⟩
  · obtain ⟨name, -, hnew⟩ := toList_retagged hmain tag
    rw [hnew]
    simp
  · rcases eq_of_isQuoteChar hquote with rfl | rfl <;> decide

end Retagged

lemma WrittenOut.of_front {a r : List Char} {m : ImageLocation} (h : WrittenOut (a ++ r) m)
    (hle : m.span.stop ≤ advance ⟨1, 0⟩ a) (r' : List Char) : WrittenOut (a ++ r') m := by
  obtain ⟨before, quote, long, behind, hstands⟩ := h
  have heq := hstands.text_eq
  rw [← append_assoc] at heq
  rw [hstands.stop] at hle
  obtain ⟨g, rfl⟩ := exists_eq_append_of_advance_le heq.symm hle
  exact ⟨before, quote, long, g ++ r', by simp only [append_assoc], hstands.isQuote, hstands.plain,
    hstands.ascii, hstands.start, hstands.stop⟩

/-- What is needed to put another tag to a location: its image is written out in the text, and a token
starts there. -/
structure Ready (text : List Char) (ts : List Token) (l : ImageLocation) : Prop where
  main : endsWith l.image ":main" = true
  written : WrittenOut text l
  token : ∃ t ∈ ts, t.span.start = l.span.start ∧ t.span.start < t.span.stop

/-- One location gets another tag: tokens in front of it stay, and those behind it only move. -/
lemma Ready.edit {ts : List Token} (h : Ready text ts l) (htag : isTag tag)
    (hfeeds : HasFeeds text) (hts : ofText text = .ok ts) (p : Path) :
    ∃ text' front t back back',
      replaceAt p tag (lineList text) l = .ok (lineList text') ∧ HasFeeds text' ∧
      ts = front ++ ⟨.quote { body := l.image.toList }, l.span⟩ :: back ∧
      ofText text' = .ok (front ++ t :: back') ∧
      t.lexeme = .quote { body := (retagged tag l.image).toList } ∧ t.span.start = l.span.start ∧
      back'.map lexeme = back.map lexeme ∧
      ∀ m : ImageLocation, WrittenOut text m → m.span.stop ≤ l.span.start → WrittenOut text' m := by
  obtain ⟨before, quote, long, behind, hstands⟩ := h.written
  have hnew := plain_retagged htag h.main hstands.isQuote hstands.plain
  have hinline : ∀ c ∈ (retagged tag l.image).toList, isLineEnd c = false := by
    intro c hc
    obtain hc | hc := mem_retagged htag h.main hc
    · exact hstands.isLineEnd_image hfeeds c hc
    · exact (isInner_spec hc).1
  have hzero : '\x00' ∉ (retagged tag l.image).toList := by
    intro hc
    obtain hc | hc := mem_retagged htag h.main hc
    · exact (ofText_eq_ok_iff.mp hts).1 (hstands.mem_text hc)
    · exact (isInner_spec hc).2.2.2 rfl
  have hreplace := hstands.replaceAt_eq hfeeds p (withTag_eq h.main tag ▸ hinline)
  have htoken := h.token
  rw [hstands.start] at htoken
  rw [hstands.text_eq] at hts
  obtain ⟨front, back, back', hfront, hts', hback⟩ :=
    ofText_edit hstands.isQuote hstands.plain hnew hts hzero htoken
  refine ⟨_, front, _, back, back', withTag_eq h.main tag ▸ hreplace, ?_, ?_, hts', rfl, hstands.start.symm,
    hback, ?_⟩
  · have hparts := hfeeds
    rw [hstands.text_eq, hasFeeds_append, hasFeeds_append] at hparts
    rw [hasFeeds_append, hasFeeds_append]
    refine ⟨hparts.1, fun c hc hend => ?_, hparts.2.2⟩
    rw [isLineEnd_literal hstands.isQuote long hinline c hc] at hend
    cases hend
  · rw [hfront, ← hstands.span_literalToken]
    rfl
  · intro m hm hle
    rw [hstands.text_eq] at hm
    rw [hstands.start] at hle
    exact hm.of_front hle _

lemma WrittenOut.start_lt_stop (h : WrittenOut text l) : l.span.start < l.span.stop := by
  obtain ⟨before, quote, long, behind, hstands⟩ := h
  rw [hstands.start, hstands.stop, advance_append]
  exact lt_advance _ (literal_ne_nil _ _ _)

/-- The change that puts another tag to the images at some locations. -/
def retagging (tag : String) (ls : List ImageLocation) : Change := fun s =>
  (ls.find? fun l => l.span = s).map fun l => retagged tag l.image

lemma retagging_eq_none_iff {s : Span} : retagging tag ls s = none ↔ ∀ l ∈ ls, l.span ≠ s := by
  simp [retagging]

lemma retagging_append {s : Span} (h : l.span ≠ s) :
    retagging tag (ls ++ [l]) s = retagging tag ls s := by
  simp [retagging, h]

lemma retagging_last (h : ∀ m ∈ ls, m.span ≠ l.span) :
    retagging tag (ls ++ [l]) l.span = some (retagged tag l.image) := by
  have hnone : (ls.find? fun m => m.span = l.span) = none := by simpa using h
  rw [retagging, find?_append, hnone]
  simp

lemma foldlM_replaceAt (htag : isTag tag) (p : Path) {ts : List Token}
    (hfeeds : HasFeeds text) (hts : ofText text = .ok ts) (hready : ∀ l ∈ ls, Ready text ts l)
    (hsorted : ls.Pairwise fun l m => l.span.stop ≤ m.span.start) :
    ∃ text' ts', ls.reverse.foldlM (replaceAt p tag) (lineList text) = .ok (lineList text') ∧
      ofText text' = .ok ts' ∧
      ts'.map (forget unchanged) = ts.map (forget (retagging tag ls)) := by
  induction ls using List.reverseRecOn generalizing text ts with
  | nil => exact ⟨text, ts, rfl, hts, rfl⟩
  | append_singleton ls l ih =>
    have hlast := hready l (mem_append_right _ (mem_singleton_self l))
    obtain ⟨text₁, front, t, back, back₁, hreplace, hfeeds₁, rfl, hts₁, hlexeme, hstart, hback, hkept⟩ :=
      hlast.edit htag hfeeds hts p
    obtain ⟨hls, -, hbefore⟩ := pairwise_append.mp hsorted
    have hbefore (m : ImageLocation) (hm : m ∈ ls) : m.span.stop ≤ l.span.start :=
      hbefore m hm l (mem_singleton_self l)
    have hearlier (m : ImageLocation) (hm : m ∈ ls) : m.span.start < l.span.start :=
      (hready m (mem_append_left _ hm)).written.start_lt_stop.trans_le (hbefore m hm)
    have hordered := (ofText_eq_ok_iff.mp hts).2.ordered
    have hordered₁ := (ofText_eq_ok_iff.mp hts₁).2.ordered
    have hready₁ : ∀ m ∈ ls, Ready text₁ (front ++ t :: back₁) m := by
      intro m hm
      obtain ⟨hmain, hwritten, u, hu, hustart, huroom⟩ := hready m (mem_append_left _ hm)
      refine ⟨hmain, hkept m hwritten (hbefore m hm), u, ?_, hustart, huroom⟩
      exact mem_append_left _ (hordered.mem_front hu (hustart ▸ hearlier m hm))
    obtain ⟨text', ts', hfold, hts', hforget⟩ := ih hfeeds₁ hts₁ hready₁ hls
    refine ⟨text', ts', ?_, hts', ?_⟩
    · rw [reverse_append, reverse_singleton, singleton_append, foldlM_cons, hreplace]
      exact hfold
    · have hbehind := (pairwise_append.mp hordered.pairwise)
      have hbehind₁ := (pairwise_append.mp hordered₁.pairwise)
      have hroom := hlast.written.start_lt_stop
      have hnone {s : Span} (hs : l.span.start ≤ s.start) : ∀ m ∈ ls, m.span ≠ s := by
        rintro m hm rfl
        exact absurd (hearlier m hm) (not_lt.mpr hs)
      have hfront : ∀ u ∈ front, u.forget (retagging tag ls) = u.forget (retagging tag (ls ++ [l])) := by
        intro u hu
        have hle := hbehind.2.2 u hu _ mem_cons_self
        have hne : l.span ≠ u.span := by
          intro heq
          rw [← heq] at hle
          exact absurd hroom (not_lt.mpr hle)
        rw [forget, forget, retagging_append hne]
      have hthis : t.forget (retagging tag ls) =
          (⟨.quote { body := l.image.toList }, l.span⟩ : Token).forget (retagging tag (ls ++ [l])) := by
        rw [forget_of_none (retagging_eq_none_iff.mpr (hnone hstart.ge)), hlexeme, forget,
          retagging_last (hnone le_rfl)]
      have hlater : back₁.map (forget (retagging tag ls)) =
          back.map (forget (retagging tag (ls ++ [l]))) := by
        refine map_forget_of_none hback (fun u hu => ?_) fun u hu => ?_
        · have hle : l.span.stop ≤ u.span.start := rel_of_pairwise_cons hbehind.2.1 hu
          have hne : l.span ≠ u.span := by
            rintro heq
            rw [← heq] at hle
            exact absurd hroom (not_lt.mpr hle)
          rw [retagging_append hne]
          exact retagging_eq_none_iff.mpr (hnone (hroom.le.trans hle))
        · have hle := rel_of_pairwise_cons hbehind₁.2.1 hu
          have ht := hordered₁.le t (mem_append_right _ mem_cons_self)
          exact retagging_eq_none_iff.mpr (hnone (hstart ▸ ht.trans hle))
      rw [hforget, map_append, map_append, map_cons, map_cons, hthis, hlater,
        map_congr_left hfront]

end AssetCatalog.Image
