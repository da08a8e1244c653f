import AssetCatalog.Proofs.Frame

/-!
# Trees that grow

Making folders and writing files takes nothing away.
-/

namespace AssetCatalog

open List

variable {q : Location} {e : Fault}

namespace Tree

variable {c : Content} {d l p : Location} {t u : Tree}
variable {writes : Location → Content → Prop}

lemma isSome_entry?_iff (t : Tree) (l : Location) :
    (t.entry? l).isSome ↔ l ∈ t.folders ∨ (t.files.lookup l).isSome := by
  by_cases hl : l ∈ t.folders
  · simp [Tree.entry?, hl]
  · simp [Tree.entry?, hl]

lemma exists?_iff (t : Tree) (p : Location) :
    t.exists? p ↔ ∃ l, t.follow [] p = .ok l ∧ (t.entry? l).isSome := by
  rw [exists?, isFile, isFolder, find]
  rcases t.follow [] p with e | l
  · simp [bind, Except.bind]
  · rcases he : t.entry? l with _ | (c | _) <;> simp [bind, Except.bind, he, pure, Except.pure]

lemma eq_append_of_follow (hp : ".." ∉ p) (h : t.follow d p = .ok l) : l = d ++ p := by
  induction p generalizing d with
  | nil =>
    cases h
    simp
  | cons n p ih =>
    obtain ⟨hn, hp⟩ := not_or.mp (mem_cons.not.mp hp)
    simp only [follow] at h
    split at h
    · rw [if_neg (Ne.symm hn)] at h
      simpa using ih hp h
    · cases h
    · cases h

lemma exists_folder_of_follow_append {n : String}
    (h : t.follow d (p ++ n :: q) = .ok l) : ∃ k, t.follow d p = .ok k ∧ k ∈ t.folders := by
  induction p generalizing d with
  | nil =>
    simp only [nil_append, follow] at h
    split at h
    · next hfolder => exact ⟨d, rfl, (entry?_eq_folder_iff t d).mp hfolder⟩
    · cases h
    · cases h
  | cons m p ih =>
    simp only [cons_append, follow] at h ⊢
    split at h
    · exact ih h
    · cases h
    · cases h

lemma isFolder_of_follow_append {n : String}
    (h : t.follow [] (p ++ n :: q) = .ok l) : t.isFolder p :=
  (isFolder_iff t p).mpr (exists_folder_of_follow_append h)

lemma follow_append_eq_ok {k : Location} (hq : ".." ∉ q) (h : t.follow [] (p ++ q) = .ok k)
    (hk : k ∈ t.folders) : ∃ l, t.follow [] p = .ok l ∧ l ∈ t.folders ∧ k = l ++ q := by
  induction q using List.reverseRecOn generalizing k with
  | nil => exact ⟨k, by simpa using h, hk, by simp⟩
  | append_singleton q n ih =>
    simp only [mem_append, mem_singleton, not_or] at hq
    rw [← append_assoc] at h
    obtain ⟨d, hd, hfolder, rfl⟩ := follow_concat_eq_ok (Ne.symm hq.2) h
    obtain ⟨l, hl, hroot, rfl⟩ := ih hq.1 hd hfolder
    exact ⟨l, hl, hroot, append_assoc _ _ _⟩

/-- The tree `u` holds all that `t` holds, and besides only things at places that satisfy `added`. -/
structure Grows (added : Location → Prop) (t u : Tree) : Prop where
  folders : t.folders ⊆ u.folders
  entries : ∀ l, (t.entry? l).isSome → (u.entry? l).isSome
  new : ∀ l, (u.entry? l).isSome → (t.entry? l).isSome ∨ added l

namespace Grows

variable {added added' : Location → Prop} {t u v : Tree}

lemma refl (t : Tree) : Grows added t t := ⟨List.Subset.refl _, fun _ h => h, fun _ h => .inl h⟩

lemma trans (h : Grows added t u) (h' : Grows added u v) : Grows added t v where
  folders := List.Subset.trans h.folders h'.folders
  entries l hl := h'.entries l (h.entries l hl)
  new l hl := (h'.new l hl).elim (h.new l) .inr

lemma mono (h : Grows added t u) (hadded : ∀ l, added l → added' l) : Grows added' t u where
  folders := h.folders
  entries := h.entries
  new l hl := (h.new l hl).imp_right (hadded l)

lemma exists? (h : Grows added t u) {p : Location} (hp : t.exists? p) : u.exists? p := by
  obtain ⟨l, hl, hentry⟩ := (exists?_iff t p).mp hp
  exact (exists?_iff u p).mpr ⟨l, follow_of_subset h.folders hl, h.entries l hentry⟩

lemma plainNames (h : Grows added t u) (ht : t.PlainNames)
    (hadded : ∀ l, added l → ∀ n ∈ l, IsPlainName n) : u.PlainNames := by
  have hmem (s : Tree) (l : Location) : l ∈ s.files.map (·.1) ++ s.folders ↔ (s.entry? l).isSome := by
    rw [mem_append, mem_files_iff, isSome_entry?_iff, or_comm]
  intro l hl
  rcases h.new l ((hmem u l).mp hl) with hold | hnew
  · exact ht l ((hmem t l).mpr hold)
  · exact hadded l hnew

end Grows

lemma write_grows (hp : ".." ∉ p) (h : t.write p c = .ok u) :
    Grows (fun l => l = p) t u ∧ u.exists? p := by
  obtain ⟨l, hl, hfolder, rfl⟩ := write_eq_ok h
  obtain rfl : l = p := eq_append_of_follow hp hl
  have hentry (k : Location) : (Tree.entry? { t with files := putFile l c t.files } k).isSome ↔
      (t.entry? k).isSome ∨ k = l := by
    simp only [isSome_entry?_iff, lookup_putFile]
    by_cases hk : k = l
    · simp [hk]
    · simp [hk]
  have hfolders : t.folders ⊆ (Tree.mk (putFile l c t.files) t.folders).folders := List.Subset.refl _
  constructor
  · exact ⟨hfolders, fun k hk => (hentry k).mpr (.inl hk), fun k hk => (hentry k).mp hk⟩
  · exact (exists?_iff _ _).mpr ⟨l, follow_of_subset hfolders hl, (hentry l).mpr (.inr rfl)⟩

lemma makeFolders_grows (hp : ".." ∉ p) (h : t.makeFolders d p = .ok u) :
    Grows (fun l => l <+: d ++ p) t u := by
  induction p generalizing t d with
  | nil =>
    cases h
    exact .refl _
  | cons n p ih =>
    obtain ⟨hn, hp⟩ := not_or.mp (mem_cons.not.mp hp)
    have hpath : d ++ n :: p = d ++ [n] ++ p := by simp
    simp only [makeFolders, if_neg (Ne.symm hn)] at h
    rw [hpath]
    split at h
    · exact ih hp h
    · cases h
    · refine .trans ⟨?_, ?_, ?_⟩ (ih hp h)
      · exact subset_append_left _ _
      · intro l hl
        rw [isSome_entry?_iff] at hl ⊢
        exact hl.imp_left fun hfolder => mem_append_left _ hfolder
      · intro l hl
        rw [isSome_entry?_iff, mem_append, mem_singleton] at hl
        rw [isSome_entry?_iff]
        rcases hl with (hl | rfl) | hl
        · exact .inl (.inl hl)
        · exact .inr (prefix_append _ _)
        · exact .inl (.inr hl)

/-! ## The faults of writing -/

lemma isSystem_of_follow (h : t.follow d p = .error e) : e.isSystem := by
  induction p generalizing d with
  | nil => cases h
  | cons n p ih =>
    simp only [follow] at h
    split at h
    · exact ih h
    · cases h
      rfl
    · cases h
      rfl

lemma isSystem_of_write (h : t.write p c = .error e) : e.isSystem := by
  rw [write] at h
  rcases hl : t.follow [] p with e' | l
  · rw [hl] at h
    cases h
    exact isSystem_of_follow hl
  · simp only [hl, bind, Except.bind] at h
    split at h
    · cases h
      rfl
    · cases h

lemma isSystem_of_makeFolders (h : t.makeFolders d p = .error e) : e.isSystem := by
  induction p generalizing t d with
  | nil => cases h
  | cons n p ih =>
    simp only [makeFolders] at h
    split at h
    · exact ih h
    · cases h
      split <;> rfl
    · exact ih h

/-! ## Files that keep what they hold -/

lemma entry?_eq_file_iff :
    t.entry? l = some (.file c) ↔ l ∉ t.folders ∧ t.files.lookup l = some c := by
  by_cases hl : l ∈ t.folders
  · simp [Tree.entry?, hl]
  · simp [Tree.entry?, hl]

lemma read_eq_ok_iff :
    t.read p = .ok c ↔ ∃ l, t.follow [] p = .ok l ∧ t.entry? l = some (.file c) := by
  constructor
  · intro h
    obtain ⟨l, hl, hfile⟩ := read_eq_ok h
    exact ⟨l, hl, entry?_eq_file_iff.mpr hfile⟩
  · rintro ⟨l, hl, hfile⟩
    obtain ⟨hfolder, hlookup⟩ := entry?_eq_file_iff.mp hfile
    exact read_of_follow hl hfolder hlookup

lemma entry?_write (h : t.write p c = .ok u) (hl : t.follow [] p = .ok l) (k : Location) :
    u.entry? k = if k = l then some (.file c) else t.entry? k := by
  obtain ⟨l', hl', hfolder, rfl⟩ := write_eq_ok h
  cases hl.symm.trans hl'
  by_cases hk : k = l
  · rw [if_pos hk, entry?_eq_file_iff, hk, lookup_putFile, if_pos rfl]
    exact ⟨hfolder, rfl⟩
  · rw [if_neg hk, entry?, entry?, lookup_putFile, if_neg hk]

lemma read_of_write (h : t.write p c = .ok u) : u.read p = .ok c := by
  obtain ⟨l, hl, _, hu⟩ := write_eq_ok h
  have hfollow : u.follow [] p = .ok l := follow_of_folders_eq (by rw [hu]) hl
  exact read_eq_ok_iff.mpr ⟨l, hfollow, by rw [entry?_write h hl, if_pos rfl]⟩

/-- Each file of `t` is in `u` with what it held, unless one of the paths with which `writes` puts a
content leads to it: then it holds that content. -/
structure KeepsBut (writes : Location → Content → Prop) (t u : Tree) : Prop where
  folders : t.folders ⊆ u.folders
  files : ∀ l c, t.entry? l = some (.file c) → u.entry? l = some (.file c) ∨
    ∃ p d, writes p d ∧ u.follow [] p = .ok l ∧ u.entry? l = some (.file d)

namespace KeepsBut

variable {writes : Location → Content → Prop} {t u v : Tree}

lemma refl (t : Tree) : KeepsBut writes t t := ⟨List.Subset.refl _, fun _ _ h => .inl h⟩

lemma trans (h : KeepsBut writes t u) (h' : KeepsBut writes u v) : KeepsBut writes t v where
  folders := List.Subset.trans h.folders h'.folders
  files l c hl := by
    rcases h.files l c hl with hkept | ⟨p, d, hwrites, hp, hd⟩
    · exact h'.files l c hkept
    · rcases h'.files l d hd with hkept | hwritten
      · exact .inr ⟨p, d, hwrites, follow_of_subset h'.folders hp, hkept⟩
      · exact .inr hwritten

lemma read (h : KeepsBut writes t u) {c : Content} (hq : t.read q = .ok c) : u.read q = .ok c ∨
      ∃ p d, writes p d ∧ u.follow [] p = u.follow [] q ∧ u.read q = .ok d := by
  obtain ⟨l, hl, hfile⟩ := read_eq_ok_iff.mp hq
  have hu := follow_of_subset h.folders hl
  rcases h.files l c hfile with hkept | ⟨p, d, hwrites, hp, hd⟩
  · exact .inl (read_eq_ok_iff.mpr ⟨l, hu, hkept⟩)
  · exact .inr ⟨p, d, hwrites, hp.trans hu.symm, read_eq_ok_iff.mpr ⟨l, hu, hd⟩⟩

end KeepsBut

lemma write_keepsBut (h : t.write p c = .ok u)
    (hp : t.exists? p → writes p c) : KeepsBut writes t u := by
  obtain ⟨l, hl, _, hu⟩ := write_eq_ok h
  have hfolders : t.folders ⊆ u.folders := by rw [hu]; exact List.Subset.refl _
  refine ⟨hfolders, fun k d hk => ?_⟩
  rw [entry?_write h hl k]
  split
  · next hkl =>
    subst hkl
    have hthere := (exists?_iff t p).mpr ⟨k, hl, by rw [hk]; rfl⟩
    exact .inr ⟨p, c, hp hthere, follow_of_subset hfolders hl, rfl⟩
  · exact .inl hk

lemma makeFolders_keepsBut (h : t.makeFolders d p = .ok u) :
    KeepsBut writes t u := by
  induction p generalizing t d with
  | nil =>
    cases h
    exact .refl _
  | cons n p ih =>
    simp only [makeFolders] at h
    split at h
    · exact ih h
    · cases h
    · next hnone =>
      refine .trans ⟨subset_append_left _ _, fun k c hk => .inl ?_⟩ (ih h)
      obtain ⟨hfolder, hfile⟩ := entry?_eq_file_iff.mp hk
      refine entry?_eq_file_iff.mpr ⟨?_, hfile⟩
      rw [mem_append, mem_singleton, not_or]
      refine ⟨hfolder, ?_⟩
      rintro rfl
      rw [hnone] at hk
      cases hk

/-- All that is above a place is a folder. -/
def IsReached (t : Tree) (l : Location) : Prop := ∀ k, k <+: l → k ≠ l → k ∈ t.folders

lemma isReached_of_follow (hd : t.IsReached d) (h : t.follow d p = .ok l) : t.IsReached l := by
  induction p generalizing d with
  | nil =>
    cases h
    exact hd
  | cons n p ih =>
    simp only [follow] at h
    split at h
    · next hfolder =>
      refine ih (fun k hk hne => ?_) h
      split at hk
      · next hup =>
        rw [if_pos hup] at hne
        refine hd k (hk.trans ( dropLast_prefix d)) ?_
        rintro rfl
        exact hne (hk.eq_of_length_le ( dropLast_prefix k).length_le)
      · next hdown =>
        rw [if_neg hdown] at hne
        by_cases hkd : k = d
        · exact hkd ▸ (entry?_eq_folder_iff t d).mp hfolder
        · exact hd k ((prefix_concat_iff.mp hk).resolve_left hne) hkd
    · cases h
    · cases h

lemma follow_of_isReached (hp : ".." ∉ p) (h : t.IsReached (d ++ p)) :
    t.follow d p = .ok (d ++ p) := by
  induction p generalizing d with
  | nil => simp [follow, pure, Except.pure]
  | cons n p ih =>
    obtain ⟨hn, hp⟩ := not_or.mp (mem_cons.not.mp hp)
    have hfolder : t.entry? d = some .folder :=
      (entry?_eq_folder_iff t d).mpr (h d (prefix_append _ _) (by simp))
    rw [append_cons] at h ⊢
    simp only [follow, hfolder, if_neg (Ne.symm hn)]
    exact ih hp h

lemma exists?_of_follow_prefix {k : Location} (hl : t.follow [] q = .ok l) (hk : k <+: l)
    (hne : k ≠ l) (hdots : ".." ∉ k) : t.exists? k := by
  have hreached : t.IsReached l :=
    isReached_of_follow (fun m hm hnil => absurd (prefix_nil.mp hm) hnil) hl
  have hfollow : t.follow [] k = .ok k := follow_of_isReached hdots fun m hm hmk =>
    hreached m (hm.trans hk) fun heq => hmk (hm.eq_of_length_le (heq ▸ hk.length_le))
  refine (exists?_iff t k).mpr ⟨k, hfollow, ?_⟩
  rw [(entry?_eq_folder_iff t k).mpr (hreached k hk hne)]
  rfl

end Tree

namespace Run

variable {α : Type} {site : Site} {added : Location → Prop}

instance : IsPreorder World fun v w => v.tree.Grows added w.tree where
  refl w := Tree.Grows.refl w.tree
  trans _ _ _ := Tree.Grows.trans

/-- From every world, an operation lets the tree grow by places that satisfy `added` only. -/
abbrev Grows (site : Site) (added : Location → Prop) (x : Run α) : Prop :=
  Moves site (fun v w => v.tree.Grows added w.tree) (fun _ => True) x

namespace Grows

lemma makeFolders {p : Path} (hp : ".." ∉ (site.home.join p).names)
    (hadded : ∀ l, l <+: (site.home.join p).names → added l) : Grows site added (Run.makeFolders p) :=
  Moves.makeFolders (fun _ _ h => (Tree.makeFolders_grows hp h).mono hadded) fun _ _ _ => trivial

lemma writeText {p : Path} (hp : ".." ∉ (site.home.join p).names)
    (hadded : added (site.home.join p).names) (s : String) :
    Grows site added (Run.writeText p s) := by
  refine Moves.writeText (fun w u h => ?_) fun _ _ _ => trivial
  apply (Tree.write_grows hp h).1.mono
  rintro l rfl
  exact hadded

end Grows

instance {writes : Location → Content → Prop} :
    IsPreorder World fun v w => v.tree.KeepsBut writes w.tree where
  refl w := Tree.KeepsBut.refl w.tree
  trans _ _ _ := Tree.KeepsBut.trans

/-- From every world, an operation leaves the files as they are, but for those that it writes with the
contents of `writes`. -/
abbrev KeepsBut (site : Site) (writes : Location → Content → Prop) (x : Run α) : Prop :=
  Moves site (fun v w => v.tree.KeepsBut writes w.tree) (fun _ => True) x

namespace KeepsBut

variable {writes : Location → Content → Prop}

lemma of_tree_eq {x : Run α} (h : ∀ w, (x site w).2.tree = w.tree) : KeepsBut site writes x := by
  intro w
  refine ⟨?_, fun _ _ => trivial⟩
  dsimp only
  rw [h w]
  exact Tree.KeepsBut.refl w.tree

lemma makeFolders (p : Path) : KeepsBut site writes (Run.makeFolders p) :=
  Moves.makeFolders (fun _ _ h => Tree.makeFolders_keepsBut h) fun _ _ _ => trivial

lemma writeText {p : Path} {s : String} {w : World}
    (hp : w.tree.exists? (site.home.join p).names → writes (site.home.join p).names (.text s)) :
    w.tree.KeepsBut writes (Run.writeText p s site w).2.tree := by
  simp only [Run.writeText, bind_apply, locate_apply, get_apply, ofExcept_apply, modify_apply]
  rcases hwritten : w.tree.write (site.home.join p).names (.text s) with e | u
  · exact Tree.KeepsBut.refl w.tree
  · exact Tree.write_keepsBut hwritten hp

end KeepsBut

end Run

end AssetCatalog
