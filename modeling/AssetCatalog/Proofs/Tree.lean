import AssetCatalog.Proofs.Text
import AssetCatalog.Proofs.Run

/-!
# Trees of files

Which names a folder lists, and what writing a file leaves as it was.
-/

namespace AssetCatalog

open List

variable {t : Tree} {p : Location}

lemma Path.dropNames_eq_some_iff {xs ys zs : List String} :
    dropNames xs ys = some zs ↔ ys = xs ++ zs := by
  fun_induction dropNames xs ys with
  | case1 ys => simp
  | case2 x xs ys ih => simp [ih]
  | case3 x xs y ys hne => simp [Ne.symm hne]
  | case4 => simp

lemma Text.mem_distinct {α : Type} [BEq α] [LawfulBEq α] (xs : List α) (x : α) :
    x ∈ Text.distinct xs ↔ x ∈ xs := by
  have hfold (seen : List α) :
      x ∈ xs.foldl (fun seen x => if seen.contains x then seen else seen ++ [x]) seen ↔
        x ∈ seen ∨ x ∈ xs := by
    induction xs generalizing seen with
    | nil => simp
    | cons y ys ih =>
      rw [foldl_cons, ih]
      by_cases hy : y ∈ seen
      · simp only [contains_iff_mem, hy, if_true, mem_cons]
        constructor
        · rintro (h | h)
          · exact .inl h
          · exact .inr (.inr h)
        · rintro (h | rfl | h)
          · exact .inl h
          · exact .inl hy
          · exact .inr h
      · simp [hy, or_assoc]
  simpa [Text.distinct] using hfold []

lemma Text.nodup_distinct {α : Type} [BEq α] [LawfulBEq α] (xs : List α) :
    (Text.distinct xs).Nodup := by
  have hfold (seen : List α) (hseen : seen.Nodup) :
      (xs.foldl (fun seen x => if seen.contains x then seen else seen ++ [x]) seen).Nodup := by
    induction xs generalizing seen with
    | nil => exact hseen
    | cons y ys ih =>
      rw [foldl_cons]
      apply ih
      split
      · exact hseen
      · next hy =>
        rw [contains_iff_mem] at hy
        simp only [nodup_append, nodup_singleton, mem_singleton, true_and, hseen]
        rintro a ha b rfl rfl
        exact hy ha
  exact hfold [] nodup_nil

/-- Names that a file or a folder can have: not empty, and without the mark between names. -/
def IsPlainName (n : String) : Prop := n ≠ "" ∧ '/' ∉ n.toList
deriving Decidable

namespace Tree

/-- Every name in the tree is one that a file or a folder can have. -/
def PlainNames (t : Tree) : Prop :=
  ∀ k ∈ t.files.map (·.1) ++ t.folders, ∀ n ∈ k, IsPlainName n
deriving Decidable

@[simp] lemma entry?_eq_folder_iff (t : Tree) (l : Location) :
    t.entry? l = some .folder ↔ l ∈ t.folders := by
  by_cases hl : l ∈ t.folders
  · simp [hl, entry?]
  · simp [hl, entry?]

lemma namesIn_eq_ok {names : List String} (h : t.namesIn p = .ok names) :
    ∃ l, t.follow [] p = .ok l ∧ l ∈ t.folders ∧ names.Nodup ∧
      ∀ n, n ∈ names ↔ l ++ [n] ∈ t.files.map (·.1) ++ t.folders := by
  simp only [namesIn, bind, Except.bind] at h
  rcases hf : t.follow [] p with e | l
  · rw [hf] at h
    cases h
  · rw [hf] at h
    dsimp only at h
    split at h
    · cases h
    · cases h
    · next hfolder =>
      cases h
      refine ⟨l, rfl, (entry?_eq_folder_iff t l).mp hfolder, ?_, ?_⟩
      · rw [Text.sort, (mergeSort_perm _ _).nodup_iff]
        exact Text.nodup_distinct _
      · intro n
        rw [Text.sort, mem_mergeSort, Text.mem_distinct, mem_map]
        constructor
        · rintro ⟨k, hk, rfl⟩
          obtain ⟨hmem, hcond⟩ := mem_filter.mp hk
          simp only [Bool.and_eq_true, decide_eq_true_eq] at hcond
          obtain ⟨hne, rfl⟩ := hcond
          rw [getLast?_eq_some_getLast hne, Option.getD_some, dropLast_append_getLast hne]
          exact hmem
        · intro hmem
          exact ⟨l ++ [n], mem_filter.mpr ⟨hmem, by simp⟩, by simp⟩

lemma plain_of_mem_namesIn (ht : t.PlainNames) {names : List String}
    (h : t.namesIn p = .ok names) {n : String} (hn : n ∈ names) : IsPlainName n := by
  obtain ⟨l, _, _, _, hmem⟩ := namesIn_eq_ok h
  exact ht (l ++ [n]) ((hmem n).mp hn) n (by simp)

lemma follow_concat (t : Tree) (d p : Location) (n : String) :
    t.follow d (p ++ [n]) = (t.follow d p).bind fun l =>
      match t.entry? l with
      | some .folder => .ok (if n = ".." then l.dropLast else l ++ [n])
      | some (.file _) => .error .notDirectory
      | none => .error (.noFile none) := by
  induction p generalizing d with
  | nil =>
    simp only [nil_append, follow]
    rfl
  | cons m p ih =>
    simp only [cons_append, follow]
    split
    · exact ih _
    · rfl
    · rfl

lemma follow_concat_eq_ok {l : Location} {n : String} (hn : n ≠ "..")
    (h : t.follow [] (p ++ [n]) = .ok l) :
    ∃ d, t.follow [] p = .ok d ∧ d ∈ t.folders ∧ l = d ++ [n] := by
  rw [follow_concat] at h
  rcases hd : t.follow [] p with e | d
  · rw [hd] at h
    cases h
  · rw [hd] at h
    simp only [Except.bind] at h
    split at h
    · next hfolder =>
      rw [if_neg hn] at h
      cases h
      exact ⟨d, rfl, (entry?_eq_folder_iff t d).mp hfolder, rfl⟩
    · cases h
    · cases h

lemma makeFolders_of_follow {d l : Location} (h : t.follow d p = .ok l)
    (hl : l ∈ t.folders) : t.makeFolders d p = .ok t := by
  induction p generalizing d with
  | nil => rfl
  | cons n p ih =>
    simp only [follow] at h
    split at h
    · next hfolder =>
      have hnext : t.entry? (if n = ".." then d.dropLast else d ++ [n]) = some .folder := by
        cases p with
        | nil =>
          cases h
          exact (entry?_eq_folder_iff t _).mpr hl
        | cons m p =>
          simp only [follow] at h
          split at h
          · next hfolder => exact hfolder
          · cases h
          · cases h
      simp only [makeFolders, hnext]
      exact ih h
    · cases h
    · cases h

end Tree

namespace Run

lemma folderItems_ensures (ht : t.PlainNames) (p : Path) :
    Ensures (fun w => w.tree = t) (folderItems p) fun qs => ∀ q ∈ qs, IsPlainName q.name := by
  unfold folderItems
  apply Ensures.bind (.locate p)
  intro l _
  apply Ensures.bind Ensures.get
  rintro w rfl
  apply Ensures.bind (.ofExcept fun names h => h)
  intro names hnames
  apply Ensures.pure
  intro q hq
  rw [Path.sortByText, mem_mergeSort, mem_map] at hq
  obtain ⟨n, hn, rfl⟩ := hq
  simpa [Path.name] using Tree.plain_of_mem_namesIn ht hnames hn

end Run

end AssetCatalog
