import AssetCatalog.Proofs.Tree

/-!
# Files that an operation does not look at

Operations for which files of one name make no difference.
-/

namespace AssetCatalog

open List Path Tree

variable {d : Location} {s : String}

namespace Tree

variable {c : Content} {l p : Location} {n : String} {t u : Tree}

lemma follow_of_subset (h : t.folders ⊆ u.folders) (hl : t.follow d p = .ok l) :
    u.follow d p = .ok l := by
  induction p generalizing d with
  | nil => exact hl
  | cons m p ih =>
    simp only [follow] at hl
    split at hl
    · next hfolder =>
      have hfolder' : u.entry? d = some .folder := by
        rw [entry?_eq_folder_iff] at hfolder ⊢
        exact h hfolder
      simp only [follow, hfolder']
      exact ih hl
    · cases hl
    · cases hl

lemma follow_of_folders_eq (h : u.folders = t.folders) (hl : t.follow d p = .ok l) :
    u.follow d p = .ok l :=
  follow_of_subset (h ▸ List.Subset.refl _) hl

/-- Two trees with the same folders and the same files, but for the files of name `n`. -/
structure SameBut (n : String) (t u : Tree) : Prop where
  folders : u.folders = t.folders
  files : ∀ l, l.getLast? ≠ some n → u.files.lookup l = t.files.lookup l

namespace SameBut

variable {n : String} {t u v : Tree}

lemma refl (n : String) (t : Tree) : SameBut n t t := ⟨rfl, fun _ _ => rfl⟩

lemma of_eq (n : String) (h : u = t) : SameBut n t u := h ▸ refl n u

lemma symm (h : SameBut n t u) : SameBut n u t :=
  ⟨h.folders.symm, fun l hl => (h.files l hl).symm⟩

lemma trans (h : SameBut n t u) (h' : SameBut n u v) : SameBut n t v :=
  ⟨h'.folders.trans h.folders, fun l hl => (h'.files l hl).trans (h.files l hl)⟩

lemma entry? (h : SameBut n t u) {l : Location} (hl : l.getLast? ≠ some n) :
    u.entry? l = t.entry? l := by
  simp only [h.folders, h.files l hl, Tree.entry?]

lemma find_cases (h : SameBut n t u) (p : Location) :
    (∃ l, t.follow [] p = .ok l ∧ u.follow [] p = .ok l) ∨
      ∃ e e', t.follow [] p = .error e ∧ u.follow [] p = .error e' := by
  rcases ht : t.follow [] p with e | l
  · rcases hu : u.follow [] p with e' | l
    · exact .inr ⟨e, e', rfl, rfl⟩
    · rw [follow_of_folders_eq h.symm.folders hu] at ht
      cases ht
  · exact .inl ⟨l, rfl, follow_of_folders_eq h.folders ht⟩

end SameBut

lemma isFolder_iff (t : Tree) (p : Location) :
    t.isFolder p ↔ ∃ l, t.follow [] p = .ok l ∧ l ∈ t.folders := by
  rw [isFolder, find]
  rcases ht : t.follow [] p with e | l
  · simp [bind, Except.bind]
  · by_cases hl : l ∈ t.folders
    · have hfolder := (entry?_eq_folder_iff t l).mpr hl
      simp [hfolder, pure, Except.pure, hl]
    · have hfolder : t.entry? l ≠ some .folder := fun hf => hl ((entry?_eq_folder_iff t l).mp hf)
      rcases he : t.entry? l with _ | (c | _)
      · simp [he, hl]
      · simp [he, hl]
      · exact absurd he hfolder

lemma namesIn_of_notFolder (h : t.isFolder p = false) : ∃ e, t.namesIn p = .error e := by
  rcases hn : t.namesIn p with e | names
  · exact ⟨e, rfl⟩
  · obtain ⟨l, hl, hfolder, _⟩ := namesIn_eq_ok hn
    rw [(isFolder_iff t p).mpr ⟨l, hl, hfolder⟩] at h
    cases h

lemma SameBut.isFolder (h : SameBut n t u) (p : Location) : u.isFolder p = t.isFolder p := by
  rw [Bool.eq_iff_iff, isFolder_iff, isFolder_iff, h.folders]
  rcases h.find_cases p with ⟨l, ht, hu⟩ | ⟨e, e', ht, hu⟩
  · simp [ht, hu]
  · simp [ht, hu]

def EndsApart (n : String) (p : Location) : Prop := ∃ q m, p = q ++ [m] ∧ m ≠ n ∧ m ≠ ".."

lemma SameBut.find (h : SameBut n t u) (hp : EndsApart n p) :
    (u.find p).toOption = (t.find p).toOption := by
  obtain ⟨q, m, rfl, hmn, hup⟩ := hp
  rcases h.find_cases (q ++ [m]) with ⟨l, ht, hu⟩ | ⟨e, e', ht, hu⟩
  · obtain ⟨d, _, _, rfl⟩ := follow_concat_eq_ok hup ht
    have hentry : u.entry? (d ++ [m]) = t.entry? (d ++ [m]) := h.entry? (by simpa using hmn)
    simp [find, ht, hu, hentry]
  · simp [find, ht, hu, bind, Except.bind, Except.toOption]

lemma SameBut.exists? (h : SameBut n t u) (hp : EndsApart n p) : u.exists? p = t.exists? p := by
  have hfind := h.find hp
  have hfile : u.isFile p = t.isFile p := by
    rw [isFile, isFile]
    rcases ht : t.find p with e | e <;> rcases hu : u.find p with e' | e' <;>
      simp_all [Except.toOption]
  rw [Tree.exists?, Tree.exists?, hfile, h.isFolder]

lemma SameBut.read (h : SameBut n t u) (hp : EndsApart n p) :
    (u.read p).toOption = (t.read p).toOption := by
  have hfind := h.find hp
  rw [Tree.read, Tree.read]
  rcases ht : t.find p with e | e <;> rcases hu : u.find p with e' | e' <;>
    simp_all [Except.toOption, bind, Except.bind]

lemma mem_files_iff (t : Tree) (l : Location) :
    l ∈ t.files.map (·.1) ↔ (t.files.lookup l).isSome := by
  simp

lemma namesIn_of_notMem (hl : t.follow [] p = .ok l) (hfolder : l ∉ t.folders) :
    ∃ e, t.namesIn p = .error e := by
  simp only [namesIn, hl, bind, Except.bind]
  split
  · exact ⟨_, rfl⟩
  · exact ⟨_, rfl⟩
  · next hentry => exact absurd ((entry?_eq_folder_iff t l).mp hentry) hfolder

lemma namesIn_of_mem (hl : t.follow [] p = .ok l) (hfolder : l ∈ t.folders) :
    ∃ names, t.namesIn p = .ok names := by
  simp only [namesIn, hl, bind, Except.bind, (entry?_eq_folder_iff t l).mpr hfolder]
  exact ⟨_, rfl⟩

lemma SameBut.namesIn (h : SameBut n t u) (p : Location) :
    (∃ l names names', t.follow [] p = .ok l ∧ t.namesIn p = .ok names ∧
      u.namesIn p = .ok names' ∧ names.Nodup ∧ names'.Nodup ∧
      ∀ m, m ≠ n ∨ l ++ [m] ∈ t.folders → (m ∈ names' ↔ m ∈ names)) ∨
    ∃ e e', t.namesIn p = .error e ∧ u.namesIn p = .error e' := by
  rcases h.find_cases p with ⟨l, ht, hu⟩ | ⟨e, e', ht, hu⟩
  · by_cases hl : l ∈ t.folders
    · left
      obtain ⟨names, hnames⟩ := namesIn_of_mem ht hl
      obtain ⟨names', hnames'⟩ := namesIn_of_mem hu (by rwa [h.folders])
      obtain ⟨k, hk, _, hnodup, hmem⟩ := namesIn_eq_ok hnames
      obtain ⟨k', hk', _, hnodup', hmem'⟩ := namesIn_eq_ok hnames'
      cases ht.symm.trans hk
      cases hu.symm.trans hk'
      refine ⟨l, names, names', ht, hnames, hnames', hnodup, hnodup', ?_⟩
      intro m hm
      rw [hmem, hmem', mem_append, mem_append, h.folders]
      rcases hm with hm | hm
      · rw [mem_files_iff, mem_files_iff, h.files _ (by simpa using hm)]
      · simp [hm]
    · obtain ⟨e, he⟩ := namesIn_of_notMem ht hl
      obtain ⟨e', he'⟩ := namesIn_of_notMem hu (by rwa [h.folders])
      exact .inr ⟨e, e', he, he'⟩
  · exact .inr ⟨e, e', by simp [Tree.namesIn, ht, bind, Except.bind],
      by simp [Tree.namesIn, hu, bind, Except.bind]⟩

lemma lookup_putFile (l k : Location) (c : Content) (fs : List (Location × Content)) :
    (putFile l c fs).lookup k = if k = l then some c else fs.lookup k := by
  induction fs with
  | nil =>
    by_cases hk : k = l
    · simp [putFile, hk]
    · simp [putFile, hk]
  | cons f fs ih =>
    obtain ⟨m, d⟩ := f
    rw [putFile]
    by_cases hm : m = l
    · by_cases hk : k = l
      · simp [hm, hk]
      · simp [hm, hk, lookup_cons, beq_eq_false_iff_ne.mpr hk]
    · rw [if_neg hm, lookup_cons, lookup_cons, ih]
      by_cases hkm : k = m
      · simp [hkm, hm]
      · simp [beq_eq_false_iff_ne.mpr hkm]

lemma write_eq_ok (h : t.write p c = .ok u) :
    ∃ l, t.follow [] p = .ok l ∧ l ∉ t.folders ∧ u = { t with files := putFile l c t.files } := by
  simp only [write, bind, Except.bind] at h
  rcases ht : t.follow [] p with e | l
  · rw [ht] at h
    cases h
  · rw [ht] at h
    dsimp only at h
    split at h
    · cases h
    · next hfolder =>
      cases h
      refine ⟨l, rfl, ?_, rfl⟩
      intro hl
      exact hfolder ((entry?_eq_folder_iff t l).mpr hl)

lemma read_eq_ok (h : t.read p = .ok c) :
    ∃ l, t.follow [] p = .ok l ∧ l ∉ t.folders ∧ t.files.lookup l = some c := by
  rw [read, find] at h
  rcases hl : t.follow [] p with e | l
  · rw [hl] at h
    cases h
  · rw [hl] at h
    by_cases hfolder : l ∈ t.folders
    · simp [ entry?, hfolder] at h
    · rcases hlookup : t.files.lookup l with _ | d
      · simp [bind, Except.bind, entry?, hfolder, hlookup] at h
      · simp [ entry?, hfolder, hlookup] at h
        exact ⟨l, rfl, hfolder, by rw [hlookup, h]⟩

lemma read_of_follow (hl : t.follow [] p = .ok l) (hfolder : l ∉ t.folders)
    (hlookup : t.files.lookup l = some c) : t.read p = .ok c := by
  simp [read, find, hl, entry?, hfolder, hlookup,
    Except.pure]

lemma SameBut.of_write (hp : t.follow [] p = .ok (d ++ [n]))
    (h : t.write p c = .ok u) : SameBut n t u := by
  obtain ⟨l, hl, _, rfl⟩ := write_eq_ok h
  cases hp.symm.trans hl
  refine ⟨rfl, ?_⟩
  intro k hk
  rw [lookup_putFile, if_neg]
  rintro rfl
  simp at hk

end Tree

namespace Path

def item (p : Path) (n : String) : Path := { p with names := p.names ++ [n] }

lemma text_item_inj (p : Path) {m n : String} (h : (p.item m).text = (p.item n).text) : m = n := by
  simp only [text, item, List.append_eq_nil_iff, List.isEmpty_iff, List.cons_ne_nil, and_false,
    Bool.and_eq_true, if_false, Text.join_concat, ← String.append_assoc] at h
  have hlist := congrArg String.toList h
  simp only [String.toList_append, List.append_cancel_left_eq] at hlist
  exact String.toList_inj.mp hlist

lemma filter_sortByText_congr (p : Path) (f : Path → Bool) {names names' : List String}
    (hnodup : names.Nodup) (hnodup' : names'.Nodup)
    (h : ∀ m, f (p.item m) → (m ∈ names' ↔ m ∈ names)) :
    (sortByText (names'.map p.item)).filter f = (sortByText (names.map p.item)).filter f := by
  have hinj : Function.Injective p.item := fun m n hmn => text_item_inj p (congrArg text hmn)
  have hperm : (names'.map p.item).filter f |>.Perm ((names.map p.item).filter f) := by
    rw [perm_ext_iff_of_nodup ((hnodup'.map hinj).filter _) ((hnodup.map hinj).filter _)]
    intro q
    simp only [mem_filter, mem_map]
    constructor
    · rintro ⟨⟨m, hm, rfl⟩, hf⟩
      exact ⟨⟨m, (h m hf).mp hm, rfl⟩, hf⟩
    · rintro ⟨⟨m, hm, rfl⟩, hf⟩
      exact ⟨⟨m, (h m hf).mpr hm, rfl⟩, hf⟩
  refine List.Perm.eq_of_pairwise ?_ ((Text.pairwise_mergeSort text _).filter _)
    ((Text.pairwise_mergeSort text _).filter _) ?_
  · intro a b ha hb hab hba
    have hmem {xs : List String} {q : Path} (hq : q ∈ (sortByText (xs.map p.item)).filter f) :
        ∃ m, p.item m = q := by
      rw [mem_filter, sortByText, mem_mergeSort, mem_map] at hq
      obtain ⟨⟨m, _, hm⟩, _⟩ := hq
      exact ⟨m, hm⟩
    obtain ⟨m, rfl⟩ := hmem ha
    obtain ⟨k, rfl⟩ := hmem hb
    rw [text_item_inj p (le_antisymm hab hba)]
  · exact ((mergeSort_perm _ _).filter f).trans
      (hperm.trans ((mergeSort_perm _ _).filter f).symm)

lemma join_below (home p : Path) (hs : ofText s = ⟨"", [s]⟩) :
    (home.join (p.below s)).names = (home.join p).names ++ [s] := by
  rw [below, hs]
  by_cases hp : p.isAbsolute
  · have hroot : p.root ≠ "" := by simpa [isAbsolute] using hp
    simp [join, isAbsolute, hroot]
  · have hroot : p.root = "" := by simpa [isAbsolute] using hp
    simp [join, isAbsolute, hroot]

lemma join_item (home p : Path) (n : String) :
    (home.join (p.item n)).names = (home.join p).names ++ [n] := by
  by_cases hp : p.isAbsolute
  · have hroot : p.root ≠ "" := by simpa [isAbsolute] using hp
    simp [join, item, isAbsolute, hroot]
  · have hroot : p.root = "" := by simpa [isAbsolute] using hp
    simp [join, item, isAbsolute, hroot]

end Path

namespace Run

variable {α β : Type} {x : Run α} {f : α → Run β} {a : α} {b : β}
variable {site : Site} {w v : World} {t : Tree} {n : String}

/-- An operation that leaves the tree as it is, and for which files of name `n` make no
difference. -/
structure Overlooks (n : String) (x : Run α) : Prop where
  tree : ∀ site w, (x site w).2.tree = w.tree
  same : ∀ site {w v}, w.tree.SameBut n v.tree → (x site v).1.toOption = (x site w).1.toOption

namespace Overlooks

lemma ok (hx : Overlooks n x) (h : w.tree.SameBut n v.tree) (ha : (x site w).1 = .ok a) :
    (x site v).1 = .ok a := by
  have hsame := hx.same site h
  rw [ha] at hsame
  rcases hv : (x site v).1 with e | b
  · rw [hv] at hsame
    cases hsame
  · rw [hv] at hsame
    cases hsame
    rfl

lemma pure (a : α) : Overlooks n (Pure.pure a) := ⟨fun _ _ => rfl, fun _ _ _ _ => rfl⟩

lemma throw (e : Fault) : Overlooks n (throw e : Run α) := ⟨fun _ _ => rfl, fun _ _ _ _ => rfl⟩

lemma ofExcept (x : Except Fault α) : Overlooks n (ofExcept x) := by
  constructor
  · intro site w
    rw [ofExcept_apply]
  · intro site w v _
    rw [ofExcept_apply, ofExcept_apply]

lemma log (level : Level) (message : String) : Overlooks n (log level message) :=
  ⟨fun _ _ => rfl, fun _ _ _ _ => rfl⟩

lemma outcomes (hx : Overlooks n x) (site : Site) (h : w.tree.SameBut n v.tree) :
    ∃ w' v', w'.tree.SameBut n v'.tree ∧
      ((∃ a, x site w = (.ok a, w') ∧ x site v = (.ok a, v')) ∨
        ∃ e e', x site w = (.error e, w') ∧ x site v = (.error e', v')) := by
  have hsame := hx.same site h
  have htree := hx.tree site w
  have htree' := hx.tree site v
  rcases hw : x site w with ⟨r, w'⟩
  rcases hv : x site v with ⟨r', v'⟩
  rw [hw, hv] at hsame
  rw [hw] at htree
  rw [hv] at htree'
  refine ⟨w', v', by rwa [htree, htree'], ?_⟩
  rcases r with e | a
  · rcases r' with e' | b
    · exact .inr ⟨e, e', rfl, rfl⟩
    · cases hsame
  · rcases r' with e' | b
    · cases hsame
    · cases hsame
      exact .inl ⟨a, rfl, rfl⟩

/-- An operation that goes on from how another one ends, and alike from all of its failures. -/
lemma after {y : Run β} (f : Except Fault α → Run β)
    (hy : ∀ site w, y site w = f (x site w).1 site (x site w).2) (hx : Overlooks n x)
    (hf : ∀ r, Overlooks n (f r))
    (hconst : ∀ e e' site w, (f (.error e) site w).1.toOption = (f (.error e') site w).1.toOption) :
    Overlooks n y := by
  constructor
  · intro site w
    rw [hy]
    exact ((hf _).tree site _).trans (hx.tree site w)
  · intro site w v h
    obtain ⟨w', v', h', ⟨a, hw, hv⟩ | ⟨e, e', hw, hv⟩⟩ := hx.outcomes site h
    · rw [hy, hy, hw, hv]
      exact (hf _).same site h'
    · rw [hy, hy, hw, hv]
      exact ((hf _).same site h').trans (hconst e' e site w')

lemma bind (hx : Overlooks n x) (hf : ∀ a, Overlooks n (f a)) : Overlooks n (x >>= f) := by
  refine hx.after (fun r => r.casesOn MonadExcept.throw f) ?_ ?_ (fun _ _ _ _ => rfl)
  · intro site w
    rw [bind_apply]
    rcases x site w with ⟨e | a, w'⟩ <;> rfl
  · rintro (e | a)
    · exact throw e
    · exact hf a

lemma map {f : α → β} (hx : Overlooks n x) : Overlooks n (f <$> x) := by
  exact hx.bind fun a => pure (f a)

lemma ite {c : Prop} [Decidable c] {x y : Run α} (hx : Overlooks n x) (hy : Overlooks n y) :
    Overlooks n (if c then x else y) := by
  split
  · exact hx
  · exact hy

lemma check {c : Prop} [Decidable c] {e : Fault} {k : Unit → Run α} (hk : Overlooks n (k ())) :
    Overlooks n (if c then MonadExcept.throw e >>= k else k ()) :=
  ite ((throw e).bind fun _ => hk) hk

lemma tryCatch {f : Fault → Run α} (hx : Overlooks n x) (hf : ∀ e, Overlooks n (f e))
    (hconst : ∀ e e' site w, (f e site w).1.toOption = (f e' site w).1.toOption := by intros; rfl) :
    Overlooks n (tryCatch x f) := by
  refine hx.after (fun r => r.casesOn f Pure.pure) ?_ ?_ hconst
  · intro site w
    rw [tryCatch_apply]
    rcases x site w with ⟨e | a, w'⟩ <;> rfl
  · rintro (e | a)
    · exact hf e
    · exact pure a

lemma attempt_bind {f : Except Fault α → Run β} (hx : Overlooks n x)
    (hok : ∀ a, Overlooks n (f (.ok a))) (herror : ∀ e, Overlooks n (f (.error e)))
    (hconst : ∀ e e' site w, (f (.error e) site w).1.toOption =
      (f (.error e') site w).1.toOption := by intros; rfl) : Overlooks n (attempt x >>= f) := by
  refine hx.after f ?_ ?_ hconst
  · intro site w
    rw [bind_apply, attempt_apply]
  · rintro (e | a)
    · exact herror e
    · exact hok a

lemma mapM (hf : ∀ a, Overlooks n (f a)) (xs : List α) : Overlooks n (xs.mapM f) := by
  induction xs with
  | nil => exact pure []
  | cons a as ih =>
    rw [mapM_cons]
    exact (hf a).bind fun b => ih.bind fun bs => pure (b :: bs)

lemma filterM {f : α → Run Bool} (hf : ∀ a, Overlooks n (f a)) (xs : List α) :
    Overlooks n (xs.filterM f) := by
  induction xs with
  | nil => exact pure []
  | cons a as ih =>
    rw [filterM_cons]
    exact (hf a).bind fun b => ih.bind fun ys => pure _

lemma exists? (p : Path) (hs : ofText s = ⟨"", [s]⟩) (hn : s ≠ n)
    (hup : s ≠ "..") : Overlooks n (Run.exists? (p.below s)) := by
  constructor
  · intro site w
    rw [exists?_apply]
  · intro site w v h
    rw [exists?_apply, exists?_apply, h.exists? ⟨_, s, join_below site.home p hs, hn, hup⟩]

lemma readText (p : Path) (hs : ofText s = ⟨"", [s]⟩) (hn : s ≠ n)
    (hup : s ≠ "..") : Overlooks n (Run.readText (p.below s)) := by
  have hcontent : Overlooks n (content (p.below s)) := by
    constructor
    · intro site w
      simp [content]
    · intro site w v h
      simp only [content, bind_apply, ofExcept_apply]
      exact h.read ⟨_, s, join_below site.home p hs, hn, hup⟩
  exact hcontent.bind fun c => ofExcept _

/-- Asking whether a path leads to anything makes no difference in front of an operation that fails
where it leads to no folder. -/
lemma exists_check (p : Path) {e : Fault} (hx : Overlooks n x)
    (hfail : ∀ site w, w.tree.isFolder (site.home.join p).names = false →
      (x site w).1.toOption = none) : Overlooks n (do
      if !(← Run.exists? p) then MonadExcept.throw e
      x) := by
  have hrun (site : Site) (w : World) : ((do
      if !(← Run.exists? p) then MonadExcept.throw e
      x : Run α) site w).1.toOption = (x site w).1.toOption := by
    rw [bind_apply, exists?_apply]
    cases hfolder : w.tree.isFolder (site.home.join p).names with
    | true => simp [Tree.exists?, hfolder]
    | false =>
      rw [hfail site w hfolder]
      cases w.tree.exists? (site.home.join p).names with
      | true => exact hfail site w hfolder
      | false => rfl
  constructor
  · intro site w
    rw [bind_apply, exists?_apply]
    cases w.tree.exists? (site.home.join p).names with
    | true => exact hx.tree site w
    | false => rfl
  · intro site w v h
    rw [hrun, hrun]
    exact hx.same site h

end Overlooks

/-- In every world of a tree, an operation gives a value and leaves the tree as it is. -/
def Gives (x : Run α) (site : Site) (t : Tree) (a : α) : Prop :=
  ∀ w, w.tree = t → ∃ v, x site w = (.ok a, v) ∧ v.tree = t

namespace Gives

lemma pure (a : α) (site : Site) (t : Tree) : Gives (Pure.pure a) site t a :=
  fun w hw => ⟨w, rfl, hw⟩

lemma bind (hx : Gives x site t a) (hf : Gives (f a) site t b) : Gives (x >>= f) site t b := by
  intro w hw
  obtain ⟨v, hv, htree⟩ := hx w hw
  rw [bind_of_eq hv]
  exact hf v htree

lemma bind_eq_ok (hx : Gives x site t a) (hw : w.tree = t) (h : ((x >>= f) site w).1 = .ok b) :
    ∃ v, v.tree = t ∧ (f a site v).1 = .ok b := by
  obtain ⟨v, hv, htree⟩ := hx w hw
  rw [bind_of_eq hv] at h
  exact ⟨v, htree, h⟩

lemma mapM {g : α → β} (h : ∀ a, Gives (f a) site t (g a)) (xs : List α) :
    Gives (xs.mapM f) site t (xs.map g) := by
  induction xs with
  | nil => exact pure [] site t
  | cons a xs ih =>
    rw [mapM_cons, map_cons]
    exact (h a).bind (ih.bind (pure _ site t))

lemma mapM_option {o : Option α} {o' : Option β}
    (h : Option.Rel (fun a b => Gives (f a) site t b) o o') : Gives (o.mapM f) site t o' := by
  cases h with
  | none => exact pure none site t
  | some h =>
    exact h.bind (pure _ site t)

lemma ok (hx : Gives x site w.tree a) : (x site w).1 = .ok a := by
  obtain ⟨v, hv, _⟩ := hx w rfl
  rw [hv]

lemma tree (hx : Gives x site t a) (hw : w.tree = t) : (x site w).2.tree = t := by
  obtain ⟨v, hv, htree⟩ := hx w hw
  rw [hv]
  exact htree

end Gives

/-- From the worlds of a tree, an operation ends as another one does from such a world. -/
def EndsAs (x y : Run α) (site : Site) (t : Tree) : Prop :=
  ∀ w, w.tree = t → ∃ v, v.tree = t ∧ x site w = y site v

lemma EndsAs.refl (x : Run α) (site : Site) (t : Tree) : EndsAs x x site t :=
  fun w hw => ⟨w, hw, rfl⟩

lemma Gives.endsAs_bind {y : Run β} (hx : Gives x site t a) (hf : EndsAs (f a) y site t) :
    EndsAs (x >>= f) y site t := by
  intro w hw
  obtain ⟨v, hv, htree⟩ := hx w hw
  rw [bind_of_eq hv]
  exact hf v htree

lemma Overlooks.gives (hx : Overlooks n x) (ha : (x site w).1 = .ok a) : Gives x site w.tree a :=
  fun v hv => ⟨(x site v).2, Prod.ext (hx.ok (.of_eq n hv) ha) rfl, (hx.tree site v).trans hv⟩

lemma Overlooks.bind_eq_ok (hx : Overlooks n x) (hw : w.tree = t)
    (h : ((x >>= f) site w).1 = .ok b) :
    ∃ a v, Gives x site t a ∧ v.tree = t ∧ (f a site v).1 = .ok b := by
  obtain ⟨a, v, hv, _⟩ := Run.bind_eq_ok (Prod.ext h rfl)
  have hgives : Gives x site t a := hw ▸ hx.gives (by rw [hv])
  obtain ⟨v, htree, h⟩ := hgives.bind_eq_ok hw h
  exact ⟨a, v, hgives, htree, h⟩

lemma filterM_apply_of_mem {f : α → Run Bool} {g : α → Bool} {xs : List α}
    (h : ∀ a ∈ xs, f a site w = (.ok (g a), w)) : xs.filterM f site w = (.ok (xs.filter g), w) := by
  induction xs with
  | nil => rfl
  | cons a as ih =>
    obtain ⟨ha, has⟩ := forall_mem_cons.mp h
    rw [filterM_cons, bind_of_eq ha, bind_of_eq (ih has), filter_cons]
    rfl

lemma filterM_apply {f : α → Run Bool} {g : α → Bool} (h : ∀ a, f a site w = (.ok (g a), w))
    (xs : List α) : xs.filterM f site w = (.ok (xs.filter g), w) :=
  filterM_apply_of_mem fun a _ => h a

lemma Overlooks.folders (hn : n ≠ "..") {choose : Path → Run Bool} {f : Site → Tree → Path → Bool}
    (hchoose : ∀ q site w, choose q site w =
      (.ok (w.tree.isFolder (site.home.join q).names && f site w.tree q), w))
    (hsame : ∀ site {t u : Tree} q, t.SameBut n u → f site u q = f site t q) (p : Path) :
    Overlooks n (folderItems p >>= fun items => items.filterM choose) := by
  have hrun (site : Site) (w : World) :
      (folderItems p >>= fun items => items.filterM choose) site w =
        ((w.tree.namesIn (site.home.join p).names).map fun names =>
          (sortByText (names.map p.item)).filter fun q =>
            w.tree.isFolder (site.home.join q).names && f site w.tree q, w) := by
    simp only [folderItems, bind_apply, locate_apply, get_apply]
    rcases w.tree.namesIn (site.home.join p).names with e | names
    · rfl
    · exact filterM_apply (fun q => hchoose q site w) _
  constructor
  · intro site w
    rw [hrun]
  · intro site w v h
    rw [hrun, hrun]
    obtain ⟨l, names, names', hl, hnames, hnames', hnodup, hnodup', hmem⟩ | ⟨e, e', he, he'⟩ :=
      h.namesIn (site.home.join p).names
    · rw [hnames, hnames']
      simp only [Except.map, h.isFolder, hsame site _ h]
      rw [filter_sortByText_congr p _ hnodup hnodup']
      intro m hf
      apply hmem
      by_cases hm : m = n
      · right
        obtain ⟨k, hk, hin⟩ := (isFolder_iff _ _).mp (Bool.and_eq_true_iff.mp hf).1
        rw [join_item, hm] at hk
        obtain ⟨d, hd, _, rfl⟩ := follow_concat_eq_ok hn hk
        cases hl.symm.trans hd
        rwa [hm]
      · exact .inl hm
    · rw [he, he']
      rfl

end Run

end AssetCatalog
