import AssetCatalog.Proofs.Text

/-!
# Lines of a text

What stands around a part of a line does not depend on the part.
-/

namespace AssetCatalog.Text

open List

variable {c : Char} {a : List Char}

def lastLine (a : List Char) : List Char := (a.reverse.takeWhile (· ≠ '\n')).reverse

lemma lastLine_feed (a : List Char) : lastLine (a ++ ['\n']) = [] := by
  simp [lastLine]

lemma lastLine_char (a : List Char) (hc : c ≠ '\n') :
    lastLine (a ++ [c]) = lastLine a ++ [c] := by
  simp [lastLine, hc]

def HasFeeds (a : List Char) : Prop := ∀ c ∈ a, isLineEnd c = true → c = '\n'

lemma hasFeeds_append {b : List Char} : HasFeeds (a ++ b) ↔ HasFeeds a ∧ HasFeeds b :=
  forall_mem_append

lemma linesFrom_cons (hc : c ≠ '\r') (cs acc : List Char) : linesFrom (c :: cs) acc =
      if isLineEnd c then (c :: acc).reverse :: linesFrom cs [] else linesFrom cs (c :: acc) := by
  rw [linesFrom]
  simp [hc]

lemma linesFrom_feed (cs acc : List Char) :
    linesFrom ('\n' :: cs) acc = (acc.reverse ++ ['\n']) :: linesFrom cs [] := by
  rw [linesFrom_cons (by decide), if_pos (by decide), reverse_cons]

lemma linesFrom_char (hc : isLineEnd c = false) (cs acc : List Char) :
    linesFrom (c :: cs) acc = linesFrom cs (c :: acc) := by
  have hne : c ≠ '\r' := by
    rintro rfl
    cases hc
  rw [linesFrom_cons hne, hc, if_neg Bool.false_ne_true]

/-- The lines of a text are those in front of a place, and then those from there, of which the first
has begun in front. -/
lemma linesFrom_append (ha : HasFeeds a) : ∃ front, front.length = a.count '\n' ∧
      ∀ rest, linesFrom (a ++ rest) [] = front ++ linesFrom rest (lastLine a).reverse := by
  induction a using List.reverseRecOn with
  | nil => exact ⟨[], rfl, fun _ => rfl⟩
  | append_singleton a c ih =>
    obtain ⟨ha, hc⟩ := hasFeeds_append.mp ha
    obtain ⟨front, hlength, hlines⟩ := ih ha
    by_cases hfeed : c = '\n'
    · subst hfeed
      refine ⟨front ++ [lastLine a ++ ['\n']], ?_, fun rest => ?_⟩
      · simp [hlength]
      · rw [append_assoc, hlines, singleton_append, linesFrom_feed, lastLine_feed]
        simp
    · have hend : isLineEnd c = false := by
        by_contra h
        exact hfeed (hc c (mem_singleton_self c) (by simpa using h))
      refine ⟨front, ?_, fun rest => ?_⟩
      · simp [hlength, hfeed]
      · rw [append_assoc, hlines, singleton_append, linesFrom_char hend, lastLine_char a hfeed,
          reverse_append]
        rfl

lemma linesFrom_inline {m : List Char} (hm : ∀ c ∈ m, isLineEnd c = false) (rest acc : List Char) :
    linesFrom (m ++ rest) acc = linesFrom rest (m.reverse ++ acc) := by
  induction m generalizing acc with
  | nil => rfl
  | cons c m ih =>
    obtain ⟨hc, hm⟩ := forall_mem_cons.mp hm
    rw [cons_append, linesFrom_char hc, ih hm]
    simp

lemma linesFrom_ends {post : List Char} (hpost : HasFeeds post) :
    ∃ v rest, ∀ acc ≠ [], linesFrom post acc = (acc.reverse ++ v) :: rest := by
  induction post with
  | nil =>
    refine ⟨[], [], fun acc hacc => ?_⟩
    obtain ⟨c, acc, rfl⟩ := exists_cons_of_ne_nil hacc
    rw [linesFrom, append_nil]
    simp
  | cons c post ih =>
    obtain ⟨hc, hpost⟩ := forall_mem_cons.mp hpost
    by_cases hfeed : c = '\n'
    · subst hfeed
      exact ⟨['\n'], linesFrom post [], fun acc _ => linesFrom_feed post acc⟩
    · have hend : isLineEnd c = false := by
        by_contra h
        exact hfeed (hc (by simpa using h))
      obtain ⟨v, rest, hrest⟩ := ih hpost
      refine ⟨c :: v, rest, fun acc _ => ?_⟩
      rw [linesFrom_char hend, hrest _ (cons_ne_nil c acc)]
      simp

lemma lineList_inline {post : List Char} (ha : HasFeeds a) (hpost : HasFeeds post) :
    ∃ front v rest, front.length = a.count '\n' ∧
      ∀ m ≠ [], (∀ c ∈ m, isLineEnd c = false) →
        lineList (a ++ (m ++ post)) = front ++ (lastLine a ++ m ++ v) :: rest := by
  obtain ⟨front, hlength, hlines⟩ := linesFrom_append ha
  obtain ⟨v, rest, hends⟩ := linesFrom_ends hpost
  refine ⟨front, v, rest, hlength, fun m hm hinline => ?_⟩
  rw [lineList, hlines, linesFrom_inline hinline, hends]
  · simp
  · simp [hm]

lemma flatten_linesFrom (cs acc : List Char) : (linesFrom cs acc).flatten = acc.reverse ++ cs := by
  fun_induction linesFrom cs acc <;> simp_all

lemma flatten_lineList (cs : List Char) : (lineList cs).flatten = cs := flatten_linesFrom cs []

end AssetCatalog.Text
