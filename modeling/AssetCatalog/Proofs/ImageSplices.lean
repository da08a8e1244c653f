import AssetCatalog.Image.TagCheck
import AssetCatalog.Proofs.ImageOverride

/-!
# Tags put into lines

The places are changed one by one, each at columns of the lines as they were. The result is that of
changing all places at once, with quotes as the loop reads them.
-/

namespace AssetCatalog.Image

open Asset Source Source.Token Text List

variable {l m : ImageLocation} {ls ls' : List ImageLocation} {lines front back : List (List Char)}
  {a b d : List Char} {tag : String} {put put' : ImageLocation → List Char} {n : Nat}

/-! ## Places in lines -/

def lineOf (lines : List (List Char)) (l : ImageLocation) : List Char :=
  (lines[l.span.start.line - 1]?).getD []

/-- The characters of a location. -/
def rangeOf (lines : List (List Char)) (l : ImageLocation) : List Char :=
  ((lineOf lines l).take l.span.stop.column).drop l.span.start.column

/-- A location is a literal in one of the lines: at least three characters, a quote among them. -/
structure LiesIn (lines : List (List Char)) (l : ImageLocation) : Prop where
  sameLine : l.span.start.line = l.span.stop.line
  pos : 0 < l.span.start.line
  line_le : l.span.start.line ≤ lines.length
  size : l.span.start.column + 3 ≤ l.span.stop.column
  stop_le : l.span.stop.column ≤ (lineOf lines l).length
  quoted : ∃ c ∈ rangeOf lines l, isQuoteChar c

def Apart (l m : ImageLocation) : Prop :=
  l.span.start.line ≠ m.span.start.line ∨ l.span.stop.column ≤ m.span.start.column ∨
    m.span.stop.column ≤ l.span.start.column

/-- The location `l` stands in front of the location `m`. -/
def InFront (l m : ImageLocation) : Prop :=
  l.span.start.line < m.span.start.line ∨
    l.span.start.line = m.span.start.line ∧ l.span.stop.column ≤ m.span.start.column

def covers (n k : Nat) (l : ImageLocation) : Bool :=
  l.span.start.line = n + 1 && l.span.start.column ≤ k && k < l.span.stop.column

/-- What becomes of a character in a line, if `put` is what is put in each place. -/
def piece (put : ImageLocation → List Char) (ls : List ImageLocation) (n : Nat) (x : Char × Nat) :
    List Char :=
  match ls.find? (covers n x.2) with
  | some l => if x.2 = l.span.start.column then put l else []
  | none => [x.1]

/-- The lines with all places changed at once. -/
def spliced (put : ImageLocation → List Char) (ls : List ImageLocation) (lines : List (List Char)) :
    List (List Char) :=
  lines.mapIdx fun n line => line.zipIdx.flatMap (piece put ls n)

lemma piece_of_not_covers {x : Char × Nat} (h : covers n x.2 l = false) :
    piece put (l :: ls) n x = piece put ls n x := by
  rw [piece, find?_cons_of_neg (by simp [h]), piece]

lemma flatMap_piece_outside {cs : List Char} {k : Nat}
    (h : ∀ j, j < k + cs.length → ∀ l ∈ ls, covers n j l = false) :
    (cs.zipIdx k).flatMap (piece put ls n) = cs := by
  induction cs generalizing k with
  | nil => rfl
  | cons c cs ih =>
    have hnone : ls.find? (covers n k) = none :=
      find?_eq_none.mpr fun l hl => by simp [h k (by simp) l hl]
    rw [zipIdx_cons, flatMap_cons, ih fun j hj => h j (by rw [length_cons]; omega)]
    simp [piece, hnone]

lemma flatMap_piece_inside {cs : List Char} {k : Nat} (hline : l.span.start.line = n + 1)
    (hstart : l.span.start.column < k) (hstop : k + cs.length ≤ l.span.stop.column) :
    (cs.zipIdx k).flatMap (piece put (l :: ls) n) = [] := by
  rw [flatMap_eq_nil_iff]
  rintro ⟨c, j⟩ hx
  obtain ⟨hlow, hhigh, -⟩ := mem_zipIdx hx
  have hcovers : covers n j l = true := by
    simp only [covers, hline, decide_true, Bool.true_and, Bool.and_eq_true, decide_eq_true_eq]
    omega
  rw [piece, find?_cons_of_pos hcovers]
  exact if_neg (by dsimp only; omega)

lemma spliced_nil : spliced put [] lines = lines := by
  have hline (n : Nat) (cs : List Char) : cs.zipIdx.flatMap (piece put [] n) = cs :=
    flatMap_piece_outside (by simp)
  rw [spliced, mapIdx_eq_iff]
  simp [hline]

lemma spliced_congr (h : ∀ l ∈ ls, put l = put' l) : spliced put ls lines = spliced put' ls lines := by
  have hpiece (n : Nat) : piece put ls n = piece put' ls n := by
    funext x
    cases hfind : ls.find? (covers n x.2) with
    | none => simp [piece, hfind]
    | some l => simp [piece, hfind, h l (mem_of_find?_eq_some hfind)]
  simp only [spliced, hpiece]

/-! ## One place after the other -/

/-- A line with a location in it. -/
structure Splits (lines : List (List Char)) (l : ImageLocation) (front : List (List Char))
    (a b d : List Char) (back : List (List Char)) : Prop where
  lines_eq : lines = front ++ (a ++ (b ++ d)) :: back
  line : l.span.start.line = front.length + 1
  start : l.span.start.column = a.length
  stop : l.span.stop.column = a.length + b.length

lemma LiesIn.splits (h : LiesIn lines l) :
    ∃ front a d back, Splits lines l front a (rangeOf lines l) d back := by
  obtain ⟨-, hpos, hle, hsize, hstop, -⟩ := h
  obtain ⟨k, hk⟩ := Nat.exists_eq_add_of_le' hpos
  have hlt : k < lines.length := by omega
  have hline : lines[k] = lineOf lines l := by simp [lineOf, hk, hlt]
  rw [← hline] at hstop
  have hcut : lines[k] = lines[k].take l.span.start.column ++
      (rangeOf lines l ++ lines[k].drop l.span.stop.column) := by
    have htake := take_append_drop l.span.start.column (lines[k].take l.span.stop.column)
    rw [take_take, min_eq_left (by omega)] at htake
    rw [rangeOf, ← hline, ← append_assoc, htake, take_append_drop]
  refine ⟨lines.take k, lines[k].take l.span.start.column, lines[k].drop l.span.stop.column,
    lines.drop (k + 1), ?_, ?_, ?_, ?_⟩
  · rw [← hcut, ← drop_eq_getElem_cons, take_append_drop]
  · rw [length_take, hk]
    omega
  · rw [length_take]
    omega
  · rw [rangeOf, ← hline, length_drop, length_take, length_take]
    omega

namespace Splits

variable (h : Splits lines l front a b d back) (hb : b ≠ []) (hls : ∀ m ∈ ls, InFront l m)
include h hb hls

/-- In the line of a location in front of all others, what stands up to its end is as it was. -/
lemma flatMap_piece_cons (put : ImageLocation → List Char) :
    ∃ rest, (a ++ (b ++ d)).zipIdx.flatMap (piece put ls front.length) = a ++ (b ++ rest) ∧
      (a ++ (b ++ d)).zipIdx.flatMap (piece put (l :: ls) front.length) = a ++ (put l ++ rest) := by
  obtain ⟨-, hline, hstart, hstop⟩ := h
  have hfree {j : Nat} (hj : j < a.length + b.length) : ∀ m ∈ ls, covers front.length j m = false := by
    intro m hm
    have hbefore := hls m hm
    simp only [covers, Bool.and_eq_false_iff, decide_eq_false_iff_not]
    unfold InFront at hbefore
    omega
  obtain ⟨c, b, rfl⟩ := exists_cons_of_ne_nil hb
  refine ⟨(d.zipIdx (a.length + (c :: b).length)).flatMap (piece put ls front.length), ?_, ?_⟩
  · rw [← append_assoc, zipIdx_append, flatMap_append,
      flatMap_piece_outside fun j hj => hfree (by simpa using hj)]
    simp
  · have hfirst : covers front.length a.length l = true := by
      simp [covers, hline, hstart, hstop]
    have hbehind : ∀ x ∈ d.zipIdx (a.length + (c :: b).length),
        piece put (l :: ls) front.length x = piece put ls front.length x := by
      intro x hx
      have hlow : a.length + (c :: b).length ≤ x.2 := (mem_zipIdx hx).1
      exact piece_of_not_covers (by simp [covers, hstop]; simp at hlow; omega)
    have hfront : (a.zipIdx 0).flatMap (piece put (l :: ls) front.length) = a := by
      refine flatMap_piece_outside fun j hj => forall_mem_cons.mpr ⟨?_, hfree (by omega)⟩
      simp [covers, hstart]
      omega
    rw [zipIdx_append, zipIdx_append, flatMap_append, flatMap_append, hfront, zipIdx_cons, flatMap_cons,
      flatMap_piece_inside hline (by rw [hstart]; omega) (by rw [hstop, length_cons]; omega),
      Nat.zero_add, append_nil, flatMap_congr hbehind]
    simp [piece, hfirst, hstart]

lemma spliced_cons (put : ImageLocation → List Char) :
    ∃ above rest below, above.length = front.length ∧
      spliced put ls lines = above ++ (a ++ (b ++ rest)) :: below ∧
      spliced put (l :: ls) lines = above ++ (a ++ (put l ++ rest)) :: below := by
  obtain ⟨rest, hold, hnew⟩ := h.flatMap_piece_cons hb hls put
  have hother {k : Nat} (hk : k ≠ front.length) (cs : List Char) :
      cs.zipIdx.flatMap (piece put (l :: ls) k) = cs.zipIdx.flatMap (piece put ls k) := by
    refine flatMap_congr fun x _ => piece_of_not_covers ?_
    simp [covers, h.line, hk.symm]
  refine ⟨front.mapIdx fun k cs => cs.zipIdx.flatMap (piece put ls k), rest,
    back.mapIdx fun k cs => cs.zipIdx.flatMap (piece put ls (k + 1 + front.length)), length_mapIdx, ?_, ?_⟩
  · rw [spliced, h.lines_eq, mapIdx_append, mapIdx_cons, Nat.zero_add, hold]
  · rw [spliced, h.lines_eq, mapIdx_append, mapIdx_cons, Nat.zero_add, hnew]
    congr 1
    · exact mapIdx_eq_mapIdx_iff.mpr fun k hk => hother hk.ne _
    · congr 1
      exact mapIdx_eq_mapIdx_iff.mpr fun k hk => hother (by omega) _

end Splits

/-- The quote at the start of some characters. -/
def quoteOf (cs : List Char) : List Char := (quoteAt cs 0).getD []

def enclosed (tag : String) (quote : List Char) (l : ImageLocation) : List Char :=
  quote ++ (withTag l.image tag).toList ++ quote

/-- What the loop puts in a place, where it takes the first character for the quote. -/
def asRead (tag : String) (lines : List (List Char)) (l : ImageLocation) : List Char :=
  enclosed tag (quoteOf (rangeOf lines l)) l

/-- What is to be put in a place: the quote that opens a literal is behind its marks. -/
def asOpened (tag : String) (lines : List (List Char)) (l : ImageLocation) : List Char :=
  enclosed tag (quoteOf ((rangeOf lines l).dropWhile fun c => !isQuoteChar c)) l

lemma quoteAt_append (a : List Char) {b : List Char} (hb : 3 ≤ b.length) (d : List Char) :
    quoteAt (a ++ (b ++ d)) a.length = some (quoteOf b) := by
  obtain _ | ⟨x, _ | ⟨y, _ | ⟨z, b⟩⟩⟩ := b
  all_goals first | (simp at hb; done) | skip
  rw [quoteAt, drop_left]
  rfl

lemma LiesIn.replaceAt_spliced (h : LiesIn lines l) (hls : ∀ m ∈ ls, InFront l m) (p : Path)
    (tag : String) : replaceAt p tag (spliced (asRead tag lines) ls lines) l =
      .ok (spliced (asRead tag lines) (l :: ls) lines) := by
  obtain ⟨front, a, d, back, hsplits⟩ := h.splits
  have hthree : 3 ≤ (rangeOf lines l).length := by
    have hsize := h.size
    have hstart := hsplits.start
    have hstop := hsplits.stop
    omega
  obtain ⟨above, rest, below, habove, hold, hnew⟩ :=
    hsplits.spliced_cons (ne_nil_of_length_pos (by omega)) hls (asRead tag lines)
  have hindex : l.span.start.line - 1 = above.length := by
    rw [hsplits.line, habove, Nat.add_sub_cancel]
  rw [hold, replaceAt_of_line h.sameLine (by rw [hindex, drop_left])
    (by rw [hsplits.start]; exact quoteAt_append a hthree rest), hnew, hindex, take_left, hsplits.start,
    hsplits.stop, take_left, ← append_assoc a, ← length_append, drop_left]
  simp [asRead, enclosed]

/-- The loop over locations in their order changes all places at once. -/
lemma foldlM_replaceAt_eq (p : Path) (tag : String) (hlies : ∀ l ∈ ls, LiesIn lines l)
    (hsorted : ls.Pairwise InFront) :
    ls.reverse.foldlM (replaceAt p tag) lines = .ok (spliced (asRead tag lines) ls lines) := by
  induction ls with
  | nil =>
    rw [spliced_nil]
    rfl
  | cons l ls ih =>
    obtain ⟨hl, hls⟩ := forall_mem_cons.mp hlies
    obtain ⟨hbefore, hrest⟩ := pairwise_cons.mp hsorted
    rw [reverse_cons, foldlM_append, ih hls hrest, except_ok_bind, foldlM_cons,
      hl.replaceAt_spliced hbefore]
    rfl

/-! ## Any order -/

lemma Apart.symm (h : Apart l m) : Apart m l := by
  unfold Apart at h ⊢
  omega

instance : Std.Symm Apart := ⟨fun _ _ h => h.symm⟩

lemma pairwise_inFront (hlies : ∀ l ∈ ls, LiesIn lines l) (hapart : ls.Pairwise Apart) :
    (ls.mergeSort comesBefore).Pairwise InFront := by
  have hsorted := pairwise_mergeSort_comesBefore ls
  have hapart' := (mergeSort_perm ls comesBefore).symm.pairwise hapart fun h => h.symm
  refine (hsorted.and hapart').imp_of_mem fun {l m} _ hm hlm => ?_
  have hsize := (hlies m (mem_mergeSort.mp hm)).size
  have hle := comesBefore_iff.mp hlm.1
  have hdisjoint := hlm.2
  rw [Position.le_iff] at hle
  unfold Apart at hdisjoint
  unfold InFront
  omega

/-- A character is in at most one of the places, whichever comes first. -/
lemma spliced_perm (hapart : ls.Pairwise Apart) (hperm : ls'.Perm ls) (put : ImageLocation → List Char) :
    spliced put ls' lines = spliced put ls lines := by
  have hmem {l : ImageLocation} : l ∈ ls' ↔ l ∈ ls := hperm.mem_iff
  have hunique {n k : Nat} {l m : ImageLocation} (hl : l ∈ ls) (hm : m ∈ ls) (hcl : covers n k l)
      (hcm : covers n k m) : l = m := by
    by_contra hne
    have hdisjoint := hapart.forall hl hm hne
    simp only [covers, Bool.and_eq_true, decide_eq_true_eq] at hcl hcm
    unfold Apart at hdisjoint
    omega
  have hfind (n k : Nat) : ls'.find? (covers n k) = ls.find? (covers n k) := by
    cases h : ls.find? (covers n k) with
    | none => simpa [hmem] using h
    | some l =>
      have hl := mem_of_find?_eq_some h
      obtain ⟨m, hm⟩ := Option.isSome_iff_exists.mp (find?_isSome.mpr ⟨l, hmem.mpr hl, find?_some h⟩)
      rw [hm, hunique (hmem.mp (mem_of_find?_eq_some hm)) hl (find?_some hm) (find?_some h)]
  have hpiece (n : Nat) : piece put ls' n = piece put ls n := by
    funext x
    rw [piece, hfind, piece]
  simp only [spliced, hpiece]

/-! ## Quotes -/

/-- A literal without marks in front of its quote. -/
def IsBare (lines : List (List Char)) (l : ImageLocation) : Prop :=
  ∀ c ∈ (rangeOf lines l).head?, isQuoteChar c

lemma quoteOf_cons (c : Char) (cs : List Char) : ∃ more, quoteOf (c :: cs) = c :: more := by
  obtain _ | ⟨x, _ | ⟨y, cs⟩⟩ := cs
  · exact ⟨_, rfl⟩
  · exact ⟨_, rfl⟩
  · simp only [quoteOf, quoteAt, drop_zero]
    split <;> exact ⟨_, rfl⟩

lemma LiesIn.asRead_eq_iff (h : LiesIn lines l) (tag : String) :
    asRead tag lines l = asOpened tag lines l ↔ IsBare lines l := by
  obtain ⟨q, hq, hquote⟩ := h.quoted
  rw [asRead, asOpened, IsBare]
  rcases hrange : rangeOf lines l with _ | ⟨c, cs⟩
  · simp
  by_cases hc : isQuoteChar c
  · rw [dropWhile_cons_of_neg (by simp [hc])]
    simp [hc]
  · obtain ⟨d, ds, hopen⟩ : ∃ d ds, (c :: cs).dropWhile (fun c => !isQuoteChar c) = d :: ds := by
      apply exists_cons_of_ne_nil
      intro hnil
      have hnone := dropWhile_eq_nil_iff.mp hnil q (hrange ▸ hq)
      simp [hquote] at hnone
    have hd : isQuoteChar d := by
      have hhead := head?_dropWhile_not (fun c => !isQuoteChar c) (c :: cs)
      rw [hopen] at hhead
      simpa using hhead
    obtain ⟨more, hread⟩ := quoteOf_cons c cs
    obtain ⟨more', hopened⟩ := quoteOf_cons d ds
    rw [hopen, hread, hopened]
    have hne : c ≠ d := by
      rintro rfl
      exact hc hd
    simp [enclosed, hc, hne]

/-- The loop changes all places at once, in whatever order they come. It puts the quotes that opened the
literals exactly if these have no marks. -/
theorem splice_eq_spliced (p : Path) (tag : String) {lines : List (List Char)}
    {ls ls' : List ImageLocation} (hlies : ∀ l ∈ ls, LiesIn lines l) (hapart : ls.Pairwise Apart)
    (hperm : ls'.Perm ls) :
    splice p tag lines ls' = .ok (spliced (asRead tag lines) ls lines) ∧
      (spliced (asRead tag lines) ls lines).length = lines.length ∧
      ((∀ l ∈ ls, IsBare lines l) →
        splice p tag lines ls' = .ok (spliced (asOpened tag lines) ls lines)) ∧
      ∀ l ∈ ls, (asRead tag lines l = asOpened tag lines l ↔ IsBare lines l) := by
  have hsplice : splice p tag lines ls' = .ok (spliced (asRead tag lines) ls lines) := by
    have hlies' : ∀ l ∈ ls', LiesIn lines l := fun l hl => hlies l (hperm.mem_iff.mp hl)
    have hapart' := hperm.symm.pairwise hapart fun h => h.symm
    rw [splice, foldlM_replaceAt_eq p tag (fun l hl => hlies' l (mem_mergeSort.mp hl))
      (pairwise_inFront hlies' hapart'), spliced_perm hapart ((mergeSort_perm _ _).trans hperm)]
  refine ⟨hsplice, length_mapIdx, fun hbare => ?_, fun l hl => (hlies l hl).asRead_eq_iff tag⟩
  rw [hsplice, spliced_congr fun l hl => ((hlies l hl).asRead_eq_iff tag).mpr (hbare l hl)]

def pairLine : List Char := "f(x='''q/p-a:main''', y=\"q/p-b:main\")\n".toList

def firstPlace : ImageLocation := ⟨"a", "q/p-a:main", ⟨⟨1, 4⟩, ⟨1, 20⟩⟩⟩

def secondPlace : ImageLocation := ⟨"b", "q/p-b:main", ⟨⟨1, 24⟩, ⟨1, 36⟩⟩⟩

theorem splice_pair : (∀ l ∈ [firstPlace, secondPlace], LiesIn [pairLine] l) ∧
    splice ⟨"", ["asset.py"]⟩ "v1" [pairLine] [secondPlace, firstPlace] =
      .ok ["f(x='''q/p-a:v1''', y=\"q/p-b:v1\")\n".toList] := by
  have hlies : ∀ l ∈ [firstPlace, secondPlace], LiesIn [pairLine] l := by
    rw [forall_mem_cons, forall_mem_singleton]
    exact ⟨⟨rfl, by decide, by decide, by decide, by decide +kernel, '\'', by decide +kernel, rfl⟩,
      rfl, by decide, by decide, by decide, by decide +kernel, '"', by decide +kernel, rfl⟩
  have hapart : [firstPlace, secondPlace].Pairwise Apart := pairwise_pair.mpr (.inr (.inl (by decide)))
  refine ⟨hlies, (splice_eq_spliced _ _ hlies hapart (.swap _ _ _)).1.trans (congrArg Except.ok ?_)⟩
  decide +kernel

def rawLine : List Char := "f(x=r\"q/p-a:main\")\n".toList

def rawPlace : ImageLocation := ⟨"a", "q/p-a:main", ⟨⟨1, 4⟩, ⟨1, 17⟩⟩⟩

/-- The mark of a raw literal is taken for its quote. -/
theorem splice_raw_unquoted : LiesIn [rawLine] rawPlace ∧
    splice ⟨"", ["asset.py"]⟩ "v1" [rawLine] [rawPlace] = .ok ["f(x=rq/p-a:v1r)\n".toList] ∧
    spliced (asOpened "v1" [rawLine]) [rawPlace] [rawLine] = ["f(x=\"q/p-a:v1\")\n".toList] := by
  refine ⟨⟨rfl, by decide, by decide, by decide, by decide +kernel, '"', by decide +kernel, rfl⟩, ?_,
    by decide +kernel⟩
  rw [splice, mergeSort_singleton]
  decide +kernel

/-! ## Images with other tags -/

lemma prefix_of_prefix_append {start name tail : List Char} {c : Char} (hc : c ∉ tail)
    (h : start ++ [c] <+: name ++ tail) : start ++ [c] <+: name := by
  rcases prefix_or_prefix_of_prefix h (prefix_append name tail) with h' | h'
  · exact h'
  · rcases prefix_concat_iff.mp h' with rfl | ⟨more, rfl⟩
    · exact prefix_refl _
    · rw [append_assoc, prefix_append_right_inj] at h
      exact absurd (h.subset (by simp)) hc

lemma exists_name {image : String} (h : endsWith image ":main") (tag : String) :
    ∃ name, cutLast? ':' image = some (name, "main") ∧ withTag image tag = name ++ ":" ++ tag := by
  rw [endsWith, isSuffixOf_iff_suffix] at h
  obtain ⟨name, hname⟩ := h
  have hcut : cutLast? ':' image = some (String.ofList name, "main") := by
    rw [cutLast?_eq_some_iff, String.toList_ofList]
    exact ⟨hname.symm, by decide⟩
  exact ⟨_, hcut, by rw [withTag, hcut]⟩

lemma checkTags_ensures (directories : List String) (family tag : String) :
    Run.Ensures (fun _ => True) (checkTags directories family tag) fun x =>
      ∀ r ∈ x.2, ∀ image, r.found = some image → endsWith image (":" ++ tag) = false := by
  refine .bind (.any _) fun files _ => .bind (.mapM (Q := fun rs : List TagResult =>
    ∀ r ∈ rs, ∀ image, r.found = some image → endsWith image (":" ++ tag) = false) fun x _ => ?_)
    fun rss hrss => .pure ?_
  · refine .bind (.any _) fun found _ => ?_
    rcases found with m | (_ | images)
    · exact .pure (by simp [TagResult.broken])
    · exact .pure (by simp)
    · refine .bind (.any _) fun texts _ => .pure fun r hr image hfound => ?_
      obtain ⟨i, _, rfl⟩ := mem_map.mp hr
      unfold verdict at hfound
      split at hfound
      · cases hfound
      · rename_i hlacks
        cases hfound
        exact Bool.eq_false_iff.mpr hlacks
  · intro r hr
    obtain ⟨rs, hrs, hr⟩ := mem_flatten.mp hr
    exact hrss rs hrs r hr

/-- An image with another tag keeps its name and its family, and passes the check for that tag. It takes
a tag again exactly if it has got the tag `main`. -/
theorem withTag_accepted {family tag image : String} (htag : checkTag tag = .ok ())
    (htakes : takesTag family image = true) :
    (∃ name, cutLast? ':' image = some (name, "main") ∧
      cutLast? ':' (withTag image tag) = some (name, tag)) ∧
    startsWith (withTag image tag) (family ++ "-") = true ∧
    endsWith (withTag image tag) (":" ++ tag) = true ∧
    (∀ file, verdict family tag file (withTag image tag) = .valid file) ∧
    (∀ directories site w ok results, (checkTags directories family tag site w).1 = .ok (ok, results) →
      ∀ r ∈ results, r.found ≠ some (withTag image tag)) ∧
    (takesTag family (withTag image tag) = true ↔ tag = "main") := by
  rw [takesTag, Bool.and_eq_true] at htakes
  obtain ⟨name, hmain, hnew⟩ := exists_name htakes.2 tag
  have hcolon : ':' ∉ tag.toList := fun hc =>
    absurd ((isTag_iff.mp (checkTag_eq_ok.mp htag)).2.2.1 ':' hc) (by decide)
  have hcut : cutLast? ':' (withTag image tag) = some (name, tag) := by
    rw [hnew, cutLast?_eq_some_iff]
    simp [hcolon]
  have hstart : startsWith (withTag image tag) (family ++ "-") = true := by
    have hfamily := htakes.1
    rw [startsWith, isPrefixOf_iff_prefix, (cutLast?_eq_some_iff.mp hmain).1, String.toList_append] at hfamily
    rw [startsWith, isPrefixOf_iff_prefix, hnew, String.toList_append, String.toList_append,
      String.toList_append, append_assoc]
    exact (prefix_of_prefix_append (by decide) hfamily).trans (prefix_append _ _)
  have hend : endsWith (withTag image tag) (":" ++ tag) = true := by
    rw [endsWith, isSuffixOf_iff_suffix, hnew, String.append_assoc]
    exact ⟨name.toList, String.toList_append.symm⟩
  refine ⟨⟨name, hmain, hcut⟩, hstart, hend, fun file => if_pos hend, ?_, ?_⟩
  · intro directories site w ok results hrun r hr hfound
    have hlacks := (checkTags_ensures directories family tag site w trivial).2 _ hrun r hr _ hfound
    rw [hend] at hlacks
    cases hlacks
  · rw [takesTag, hstart, Bool.true_and]
    constructor
    · intro hagain
      obtain ⟨name', hmain', -⟩ := exists_name hagain tag
      rw [hcut] at hmain'
      cases hmain'
      rfl
    · rintro rfl
      exact hend

theorem withTag_accepted_colon : takesTag "h:5/q" "h:5/q-a:main" = true ∧
    verdict "h:5/q" "v1" ⟨"", ["component.py"]⟩ (withTag "h:5/q-a:main" "v1") =
      .valid ⟨"", ["component.py"]⟩ ∧ takesTag "h:5/q" (withTag "h:5/q-a:main" "v1") = false := by
  have htakes : takesTag "h:5/q" "h:5/q-a:main" = true := by decide +kernel
  obtain ⟨_, _, _, hvalid, _, hagain⟩ := @withTag_accepted "h:5/q" "v1" "h:5/q-a:main" (by decide +kernel) htakes
  refine ⟨htakes, hvalid _, Bool.eq_false_iff.mpr fun h => ?_⟩
  exact absurd (hagain.mp h) (by decide)

end AssetCatalog.Image
