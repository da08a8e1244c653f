import AssetCatalog.Value.Order
import AssetCatalog.Proofs.Fault
import AssetCatalog.Proofs.Text

/-! # Names in mappings, and values in order -/

namespace AssetCatalog.Value

open List

variable {es : List (Value × Value)}
variable {xs ys : List Value} {k s : String} {v : Value}

lemma beq_eq_same (a b : Value) : (a == b) = same a b := rfl

lemma same_text_right : same v (.text s) ↔ v = .text s := by
  cases v <;> simp [same, sameScalar, numeric?]

lemma beq_text_iff : (v == .text s) ↔ v = .text s := same_text_right

lemma text_beq_iff : (Value.text s == v) ↔ v = .text s := by
  rw [beq_eq_same]
  cases v <;> simp [same, sameScalar, numeric?, eq_comm]

@[simp] lemma text_beq_text {t : String} : (Value.text s == Value.text t) = decide (s = t) := by
  rw [Bool.eq_iff_iff, beq_text_iff, decide_eq_true_iff, Value.text.injEq]

lemma contains_text_iff {ks : List Value} : ks.contains (.text s) ↔ .text s ∈ ks := by
  induction ks with
  | nil => simp
  | cons k ks ih => rw [contains_cons, Bool.or_eq_true, ih, mem_cons, text_beq_iff, eq_comm]

lemma any_sameMember_text_iff {ks : List Value} :
    ks.any (sameMember (.text s)) ↔ .text s ∈ ks := by
  have hsame (k : Value) : sameMember (.text s) k = (Value.text s == k) := rfl
  simp only [any_eq_true, hsame, text_beq_iff, exists_eq_right]

lemma contains_iff_of_texts {names : List String} :
    (names.map Value.text).contains v ↔ ∃ s ∈ names, v = .text s := by
  induction names with
  | nil => simp
  | cons n ns ih =>
    rw [map_cons, contains_cons, Bool.or_eq_true, ih, beq_text_iff]
    simp

lemma list_beq_texts_iff {vs : List Value} {names : List String} :
    (Value.list vs == .list (names.map .text)) ↔ vs = names.map .text := by
  rw [beq_eq_same, same]
  induction names generalizing vs with
  | nil => cases vs <;> simp [sameList]
  | cons n ns ih =>
    cases vs with
    | nil => simp [sameList]
    | cons v vs => simp [sameList, same_text_right, ih]

@[simp] lemma named_nil (k : String) : named k [] = none := rfl

lemma named_cons (k : String) (key v : Value) (es : List (Value × Value)) :
    named k ((key, v) :: es) = if key == .text k then some v else named k es := rfl

lemma mem_of_named_eq_some (h : named k es = some v) : (.text k, v) ∈ es := by
  induction es with
  | nil => cases h
  | cons e es ih =>
    obtain ⟨key, w⟩ := e
    rw [named_cons] at h
    split at h
    · rename_i hkey
      rw [beq_text_iff.mp hkey, Option.some.inj h]
      exact mem_cons_self
    · exact mem_cons_of_mem _ (ih h)

lemma named_eq_some_iff_mem (h : ((es.map (·.1)).filter (· == .text k)).length ≤ 1) :
    named k es = some v ↔ (.text k, v) ∈ es := by
  refine ⟨mem_of_named_eq_some, fun hmem => ?_⟩
  induction es with
  | nil => cases hmem
  | cons e es ih =>
    obtain ⟨key, w⟩ := e
    rw [named_cons]
    rw [map_cons, filter_cons] at h
    by_cases hkey : (key == .text k)
    · rw [if_pos hkey] at h ⊢
      have hnone : (es.map (·.1)).filter (· == .text k) = [] := by simpa using h
      rcases mem_cons.mp hmem with heq | hmem
      · rw [(Prod.mk.inj heq).2]
      · have hthere : Value.text k ∈ (es.map (·.1)).filter (· == .text k) :=
          mem_filter.mpr ⟨mem_map_of_mem hmem, beq_text_iff.mpr rfl⟩
        rw [hnone] at hthere
        cases hthere
    · rw [if_neg hkey] at h ⊢
      rcases mem_cons.mp hmem with heq | hmem
      · exact absurd (beq_text_iff.mpr (Prod.mk.inj heq).1.symm) hkey
      · exact ih h hmem

lemma named_put_self (k : String) (v : Value) (es : List (Value × Value)) :
    named k (put (.text k) v es) = some v := by
  induction es with
  | nil => simp [put, named_cons]
  | cons e es ih =>
    obtain ⟨key, w⟩ := e
    by_cases h : (key == .text k)
    · simp [put, named_cons, h]
    · simp [put, named_cons, h, ih]

lemma named_put_of_ne {k' : String} (hne : k' ≠ k) (v : Value) (es : List (Value × Value)) :
    named k' (put (.text k) v es) = named k' es := by
  have hother : ((Value.text k) == .text k') = false := by
    rw [Bool.eq_false_iff, Ne, beq_text_iff, Value.text.injEq]
    exact hne.symm
  induction es with
  | nil => simp [put, named_cons, hother]
  | cons e es ih =>
    obtain ⟨key, w⟩ := e
    by_cases h : (key == .text k)
    · rw [put, if_pos h, named_cons, named_cons, beq_text_iff.mp h, hother]
      rfl
    · rw [put, if_neg h, named_cons, named_cons, ih]

lemma put_of_named_eq_none (h : named k es = none) (v : Value) :
    put (.text k) v es = es ++ [(.text k, v)] := by
  induction es with
  | nil => rfl
  | cons e es ih =>
    obtain ⟨key, w⟩ := e
    rw [named_cons] at h
    obtain ⟨hkey, h⟩ : ¬ (key == .text k) ∧ named k es = none := by
      split at h
      · cases h
      · exact ⟨‹_›, h⟩
    rw [put, if_neg hkey, ih h, cons_append]

/-! ## Steps into values -/

lemma get_eq_ok {name : String} {w : Option Value} (h : v.get name = .ok w) :
    ∃ es, v = .map es ∧ w = named name es := by
  cases v with
  | map es =>
    cases h
    exact ⟨es, rfl, rfl⟩
  | _ => cases h

@[simp] lemma getOrNull_map (name : String) (es : List (Value × Value)) :
    getOrNull name (.map es) = .ok ((named name es).getD .null) := rfl

lemma getOrNull_eq_ok {name : String} {w : Value} :
    getOrNull name v = .ok w ↔ ∃ es, v = .map es ∧ (named name es).getD .null = w := by
  cases v with
  | map es => simp
  | _ => exact iff_of_false (by rintro ⟨⟩) (by rintro ⟨_, ⟨⟩, _⟩)

/-! ## Sorting -/

lemma less_text (s t : String) : less (.text s) (.text t) = .ok (decide (s < t)) := by
  simp [less, scalarLess, whole?, number?, pure, Except.pure]

lemma runFrom_texts {ss : List String} (h : (s :: ss).Pairwise (· ≤ ·)) (acc : List Value) :
    runFrom false (.text s) acc (ss.map .text) = .ok ((ss.map .text).reverse ++ acc, []) := by
  induction ss generalizing s acc with
  | nil => rfl
  | cons t ss ih =>
    have hle : decide (t < s) = false :=
      decide_eq_false (not_lt.mpr ((pairwise_cons.mp h).1 t (by simp)))
    rw [map_cons, runFrom, less_text, hle]
    simpa [bind, Except.bind] using ih (pairwise_cons.mp h).2 (.text t :: acc)

lemma sorted_texts {ss : List String} (h : ss.Pairwise (· ≤ ·)) :
    sorted (ss.map .text) = .ok (ss.map .text) := by
  have hrun : firstRun (ss.map .text) = .ok (ss.map .text, []) := by
    rcases ss with _ | ⟨s, _ | ⟨t, ss⟩⟩
    · rfl
    · rfl
    · have hle : decide (t < s) = false :=
        decide_eq_false (not_lt.mpr ((pairwise_cons.mp h).1 t (by simp)))
      rw [map_cons, map_cons, firstRun, less_text, hle]
      simp [bind, Except.bind, runFrom_texts (pairwise_cons.mp h).2, pure, Except.pure]
  rw [sorted, hrun]
  rfl

lemma runFrom_perm {down : Bool} {last : Value} {acc run rest : List Value}
    (h : runFrom down last acc xs = .ok (run, rest)) : (run ++ rest).Perm (acc ++ xs) := by
  induction xs generalizing last acc with
  | nil =>
    cases h
    rfl
  | cons x xs ih =>
    rw [runFrom] at h
    rcases hless : x.less last with e | b
    · rw [hless] at h
      cases h
    · rw [hless] at h
      dsimp only [bind, Except.bind] at h
      split at h
      · exact (ih h).trans perm_middle.symm
      · cases h
        rfl

lemma firstRun_perm {run rest : List Value} (h : firstRun xs = .ok (run, rest)) :
    (run ++ rest).Perm xs := by
  rcases xs with _ | ⟨x, _ | ⟨y, xs⟩⟩
  · cases h
    rfl
  · cases h
    rfl
  · rw [firstRun] at h
    rcases hless : y.less x with e | down
    · rw [hless] at h
      cases h
    · rw [hless] at h
      rcases hrun : runFrom down y [y, x] xs with e | ⟨run', rest'⟩
      · simp [hrun, bind, Except.bind] at h
      · have hperm := runFrom_perm hrun
        simp only [hrun, bind, Except.bind, pure, Except.pure, Except.ok.injEq, Prod.mk.injEq] at h
        obtain ⟨rfl, rfl⟩ := h
        have hswap : ([y, x] ++ xs).Perm (x :: y :: xs) := List.Perm.swap x y xs
        split
        · exact hperm.trans hswap
        · exact ((reverse_perm run').append_right rest').trans (hperm.trans hswap)

lemma insertSorted_perm {x : Value} (h : insertSorted xs x = .ok ys) : ys.Perm (xs ++ [x]) := by
  rw [insertSorted] at h
  rcases hplace : placeFor xs x (xs.length + 1) 0 xs.length with e | i
  · rw [hplace] at h
    cases h
  · rw [hplace] at h
    cases h
    calc (xs.take i ++ x :: xs.drop i).Perm (x :: (xs.take i ++ xs.drop i)) := perm_middle
      _ = x :: xs := by rw [take_append_drop]
      _ |>.Perm (xs ++ [x]) := (perm_append_singleton x xs).symm

lemma sorted_perm (h : sorted xs = .ok ys) : ys.Perm xs := by
  rw [sorted] at h
  rcases hrun : firstRun xs with e | ⟨run, rest⟩
  · rw [hrun] at h
    cases h
  · rw [hrun] at h
    refine List.Perm.trans ?_ (firstRun_perm hrun)
    replace h : rest.foldlM insertSorted run = .ok ys := h
    clear hrun
    induction rest generalizing run with
    | nil =>
      cases h
      simp
    | cons x rest ih =>
      rw [foldlM_cons] at h
      rcases hinsert : insertSorted run x with e | run'
      · rw [hinsert] at h
        cases h
      · rw [hinsert] at h
        calc ys.Perm (run' ++ rest) := ih run' h
          _ |>.Perm ((run ++ [x]) ++ rest) := (insertSorted_perm hinsert).append_right rest
          _ = run ++ x :: rest := by simp

def AreTexts (xs : List Value) : Prop := ∀ x ∈ xs, ∃ s, x = .text s

lemma AreTexts.of_perm (h : AreTexts xs) (hperm : ys.Perm xs) : AreTexts ys :=
  fun x hx => h x (hperm.mem_iff.mp hx)

lemma AreTexts.append (hxs : AreTexts xs) (hys : AreTexts ys) :
    AreTexts (xs ++ ys) := fun x hx => (mem_append.mp hx).elim (hxs x) (hys x)

lemma AreTexts.exists_names (h : AreTexts xs) : ∃ names : List String, xs = names.map .text := by
  induction xs with
  | nil => exact ⟨[], rfl⟩
  | cons x xs ih =>
    obtain ⟨⟨s, rfl⟩, hxs⟩ := forall_mem_cons.mp h
    obtain ⟨names, rfl⟩ := ih hxs
    exact ⟨s :: names, rfl⟩

lemma exists_placeFor (hxs : AreTexts xs) (s : String) (fuel low : Nat) {high : Nat}
    (hhigh : high ≤ xs.length) : ∃ i, placeFor xs (.text s) fuel low high = .ok i := by
  induction fuel generalizing low high with
  | zero => exact ⟨low, rfl⟩
  | succ fuel ih =>
    rw [placeFor]
    split
    · next hlow =>
      have hmiddle : low + (high - low) / 2 < xs.length := by omega
      obtain ⟨t, ht⟩ := hxs _ (getElem_mem hmiddle)
      dsimp only
      rw [getD_eq_getElem xs .null hmiddle, ht, less_text, except_ok_bind]
      split
      · exact ih _ (by omega)
      · exact ih _ hhigh
    · exact ⟨low, rfl⟩

lemma exists_runFrom (down : Bool) (s : String) (hxs : AreTexts xs) (acc : List Value) :
    ∃ r, runFrom down (.text s) acc xs = .ok r := by
  induction xs generalizing s acc with
  | nil => exact ⟨(acc, []), rfl⟩
  | cons x xs ih =>
    obtain ⟨⟨t, rfl⟩, hrest⟩ := forall_mem_cons.mp hxs
    rw [runFrom, less_text, except_ok_bind]
    split
    · exact ih t hrest _
    · exact ⟨(acc, .text t :: xs), rfl⟩

lemma exists_firstRun (hxs : AreTexts xs) : ∃ r, firstRun xs = .ok r := by
  rcases xs with _ | ⟨x, _ | ⟨y, xs⟩⟩
  · exact ⟨([], []), rfl⟩
  · exact ⟨([x], []), rfl⟩
  · obtain ⟨⟨s, rfl⟩, htail⟩ := forall_mem_cons.mp hxs
    obtain ⟨⟨t, rfl⟩, hrest⟩ := forall_mem_cons.mp htail
    obtain ⟨r, hr⟩ := exists_runFrom (decide (t < s)) t hrest [.text t, .text s]
    rw [firstRun, less_text, except_ok_bind, hr]
    exact ⟨_, rfl⟩

lemma exists_insertSorted (hxs : AreTexts xs) (s : String) :
    ∃ ys, insertSorted xs (.text s) = .ok ys := by
  obtain ⟨i, hi⟩ := exists_placeFor hxs s (xs.length + 1) 0 le_rfl
  rw [insertSorted, hi]
  exact ⟨_, rfl⟩

lemma exists_sorted (hxs : AreTexts xs) : ∃ ys, sorted xs = .ok ys := by
  obtain ⟨⟨run, rest⟩, hrun⟩ := exists_firstRun hxs
  have hall := hxs.of_perm (firstRun_perm hrun)
  rw [sorted, hrun]
  apply exists_foldlM_eq_ok (P := AreTexts)
  · intro ys x hx hys
    obtain ⟨s, rfl⟩ := hall x (mem_append_right run hx)
    obtain ⟨zs, hzs⟩ := exists_insertSorted hys s
    refine ⟨zs, hzs, AreTexts.of_perm (hys.append ?_) (insertSorted_perm hzs)⟩
    exact fun y hy => ⟨s, mem_singleton.mp hy⟩
  · exact fun y hy => hall y (mem_append_left rest hy)

end AssetCatalog.Value
