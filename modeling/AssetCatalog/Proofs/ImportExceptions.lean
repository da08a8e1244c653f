import AssetCatalog.Import.Exceptions
import AssetCatalog.Proofs.AssetPlaces
import AssetCatalog.Proofs.ImportScan

/-!
# Which imports are exempt

By the package of a module: everywhere, below a path, or by a pattern. Of paths to one place only the
last counts.
-/

namespace AssetCatalog

open List Path Text

namespace Import

variable {home file full : Path} {module raw : String} {modules : List String}
variable {places : List (String × List String)}

def Names (modules : List String) (module : String) : Prop :=
  ∃ m ∈ modules, packageOf m = packageOf module

/-- Where the entry for a path counts: a pattern has to match the path of the file, as it is seen
from `home`, or what precedes one of its slashes; any other path has to lead to the file or to a
folder above it. -/
def Covers (home : Path) (raw : String) (full : Path) : Prop :=
  if '*' ∈ raw.toList ∨ '?' ∈ raw.toList then
    ∃ start, (start = Exceptions.shownPath home full ∨
        ∃ rest, Exceptions.shownPath home full = start ++ "/" ++ rest) ∧
      globMatches raw start = true
  else ((ofText raw).resolve home).names <+: full.names

/-- The package of the module has an entry for every file, or one that covers this file. -/
def IsExempt (home : Path) (modules : List String) (places : List (String × List String))
    (module : String) (file : Path) : Prop :=
  Names modules module ∨
    ∃ e ∈ places, Names e.2 module ∧ Covers home e.1 (file.resolve home)

/-- Of two paths that lead to one place, the later one has all packages of the earlier one. -/
def KeepsPackages (home : Path) (places : List (String × List String)) : Prop :=
  places.Pairwise fun e e' => isPattern e.1 = false → isPattern e'.1 = false →
    (ofText e.1).resolve home = (ofText e'.1).resolve home →
    ∀ m ∈ e.2, Names e'.2 m

lemma isPattern_iff : isPattern raw ↔ '*' ∈ raw.toList ∨ '?' ∈ raw.toList := by
  simp only [isPattern, any_eq_true, Bool.or_eq_true, decide_eq_true_eq]
  constructor
  · rintro ⟨c, hc, rfl | rfl⟩
    · exact .inl hc
    · exact .inr hc
  · rintro (h | h)
    · exact ⟨_, h, .inl rfl⟩
    · exact ⟨_, h, .inr rfl⟩

lemma contains_packages : (Exceptions.packages modules).contains (topName module) ↔
    Names modules module := by
  simp [Exceptions.packages, mem_distinct, Names, topName_eq]

lemma isSome_dropNames {xs ys : List String} : (dropNames xs ys).isSome ↔ xs <+: ys := by
  simp only [Option.isSome_iff_exists, dropNames_eq_some_iff]
  exact exists_congr fun zs => eq_comm

lemma isWithin_resolve {base : Path} (hroot : base.root = "/") :
    (file.resolve home).isWithin base ↔ base.names <+: (file.resolve home).names := by
  rw [isWithin, relativeTo?, if_pos (by rw [hroot]; rfl), Option.isSome_map,
    isSome_dropNames]

lemma mem_beginnings {path start : String} :
    start ∈ Exceptions.beginnings path ↔ start = path ∨ ∃ rest, path = start ++ "/" ++ rest := by
  have hjoin : join "/" (split "/" path) = path := join_split '/' path
  simp only [Exceptions.beginnings, mem_map, mem_range]
  constructor
  · rintro ⟨i, hi, rfl⟩
    rcases Nat.lt_or_ge (i + 1) (split "/" path).length with hlast | hlast
    · refine .inr ⟨join "/" ((split "/" path).drop (i + 1)), ?_⟩
      have hcut := take_append_drop (i + 1) (split "/" path)
      conv_lhs => rw [← hjoin, ← hcut]
      exact String.intercalate_append_of_ne_nil (by simp [split_ne_nil]) (by simp; omega)
    · rw [take_of_length_le hlast, hjoin]
      exact .inl rfl
  · rintro (rfl | ⟨rest, rfl⟩)
    · have hpos := length_pos_iff.mpr (split_ne_nil "/" start)
      refine ⟨(split "/" start).length - 1, by omega, ?_⟩
      rw [take_of_length_le (by omega), hjoin]
    · have hpos := length_pos_iff.mpr (split_ne_nil "/" start)
      have hsplit : split "/" (start ++ "/" ++ rest) =
          split "/" start ++ split "/" rest := split_append_sep '/' start rest
      refine ⟨(split "/" start).length - 1, by rw [hsplit, length_append]; omega, ?_⟩
      rw [hsplit, Nat.sub_add_cancel hpos, take_left]
      exact join_split '/' start

section LastEntries

variable {α : Type} [DecidableEq α] {e : α × List String} {es : List (α × List String)}

lemma mem_of_mem_lastForEach (h : e ∈ lastForEach es) : e ∈ es := by
  induction es with
  | nil => exact h
  | cons d es ih =>
    rw [lastForEach] at h
    split at h
    · exact mem_cons_of_mem d (ih h)
    · exact mem_cons.mpr ((mem_cons.mp h).imp_right ih)

lemma exists_mem_lastForEach {P : α × List String → Prop}
    (hkeep : es.Pairwise fun e e' => e.1 = e'.1 → P e → P e') (h : e ∈ es) (he : P e) :
    ∃ e' ∈ lastForEach es, P e' := by
  induction es generalizing e with
  | nil => cases h
  | cons d es ih =>
    obtain ⟨hfirst, hrest⟩ := pairwise_cons.mp hkeep
    rw [lastForEach]
    rcases mem_cons.mp h with rfl | h
    · split
      · next hlater =>
        obtain ⟨e', he', hkey⟩ : ∃ e' ∈ es, e'.1 = e.1 := by simpa using hlater
        exact ih hrest he' (hfirst e' he' hkey.symm he)
      · exact ⟨e, mem_cons_self, he⟩
    · obtain ⟨e', he', hP⟩ := ih hrest h he
      split
      · exact ⟨e', he', hP⟩
      · exact ⟨e', mem_cons_of_mem d he', hP⟩

end LastEntries

section Tables

variable {α : Type} [DecidableEq α] {key : String → α} {test : α → Bool}
variable {es : List (String × List String)}

lemma exists_of_hasFor (h : Exceptions.hasFor (Exceptions.table key es) (topName module) test) :
    ∃ e ∈ es, Names e.2 module ∧ test (key e.1) := by
  obtain ⟨x, hmem, h⟩ := any_eq_true.mp h
  obtain ⟨e, he, rfl⟩ := mem_map.mp (mem_of_mem_lastForEach hmem)
  rw [Bool.and_eq_true, contains_packages] at h
  exact ⟨e, he, h⟩

lemma hasFor_of_mem {e : String × List String}
    (hkeep : es.Pairwise fun e e' => key e.1 = key e'.1 → ∀ m ∈ e.2, Names e'.2 m) (he : e ∈ es)
    (hnames : Names e.2 module) (htest : test (key e.1)) :
    Exceptions.hasFor (Exceptions.table key es) (topName module) test := by
  rw [Exceptions.hasFor, any_eq_true]
  refine exists_mem_lastForEach (pairwise_map.mpr (hkeep.imp ?_)) (mem_map_of_mem he) ?_
  · intro e e' hsame hkey h
    rw [Bool.and_eq_true, contains_packages] at h ⊢
    obtain ⟨⟨m, hm, hpackage⟩, htest⟩ := h
    obtain ⟨m', hm', hpackage'⟩ := hsame hkey m hm
    exact ⟨⟨m', hm', hpackage'.trans hpackage⟩, hkey ▸ htest⟩
  · rw [Bool.and_eq_true, contains_packages]
    exact ⟨hnames, htest⟩

end Tables

lemma covers_path (h : isPattern raw = false) : Covers home raw (file.resolve home) ↔
      (file.resolve home).isWithin ((ofText raw).resolve home) := by
  rw [Covers, if_neg (by rw [← isPattern_iff, h]; decide), isWithin_resolve rfl]

lemma covers_pattern (h : isPattern raw) :
    Covers home raw full ↔ (Exceptions.beginnings (Exceptions.shownPath home full)).any
      (globMatches raw) := by
  simp only [Covers, if_pos (isPattern_iff.mp h), any_eq_true, mem_beginnings]

lemma isExempt_of_allows (h : (Exceptions.ofLists home modules places).allows home module file) :
    IsExempt home modules places module file := by
  simp only [Exceptions.allows, Exceptions.ofLists, Bool.or_eq_true, or_assoc] at h
  rcases h with h | h | h
  · exact .inl (contains_packages.mp h)
  · obtain ⟨e, he, hnames, hwithin⟩ := exists_of_hasFor h
    obtain ⟨he, hpath⟩ := mem_filter.mp he
    exact .inr ⟨e, he, hnames, (covers_path (by simpa using hpath)).mpr hwithin⟩
  · obtain ⟨e, he, hnames, hmatches⟩ := exists_of_hasFor h
    obtain ⟨he, hpattern⟩ := mem_filter.mp he
    exact .inr ⟨e, he, hnames, (covers_pattern hpattern).mpr hmatches⟩

lemma allows_of_isExempt (hkeys : (places.map (·.1)).Nodup) (hkept : KeepsPackages home places)
    (h : IsExempt home modules places module file) :
    (Exceptions.ofLists home modules places).allows home module file := by
  simp only [Exceptions.allows, Exceptions.ofLists, Bool.or_eq_true, or_assoc]
  rcases h with h | ⟨e, he, hnames, hcovers⟩
  · exact .inl (contains_packages.mpr h)
  · cases hpattern : isPattern e.1 with
    | false =>
      refine .inr (.inl (hasFor_of_mem ?_ (mem_filter.mpr ⟨he, by rw [hpattern]; rfl⟩) hnames
        ((covers_path hpattern).mp hcovers)))
      refine (hkept.filter _).imp_of_mem fun {d d'} hd hd' h => ?_
      exact h (by simpa using (mem_filter.mp hd).2) (by simpa using (mem_filter.mp hd').2)
    | true =>
      refine .inr (.inr (hasFor_of_mem ?_ (mem_filter.mpr ⟨he, hpattern⟩) hnames
        ((covers_pattern hpattern).mp hcovers)))
      exact ((pairwise_map.mp hkeys).filter _).imp fun hne hsame => absurd hsame hne

/-- An import is let through exactly if it has an entry, and further entries never take that back,
in a mapping whose paths keep the packages of earlier paths to the same place. -/
theorem allows_iff_isExempt (hkeys : (places.map (·.1)).Nodup) (hkept : KeepsPackages home places)
    (modules : List String) (module : String) (file : Path) :
    ((Exceptions.ofLists home modules places).allows home module file = true ↔
      IsExempt home modules places module file) ∧
    ∀ before earlier, before ⊆ modules → earlier ⊆ places →
      (Exceptions.ofLists home before earlier).allows home module file = true →
      (Exceptions.ofLists home modules places).allows home module file = true := by
  refine ⟨⟨isExempt_of_allows, allows_of_isExempt hkeys hkept⟩, ?_⟩
  intro before earlier hbefore hearlier h
  apply allows_of_isExempt hkeys hkept
  rcases isExempt_of_allows h with ⟨m, hm, hpackage⟩ | ⟨e, he, hexempt⟩
  · exact .inl ⟨m, hbefore hm, hpackage⟩
  · exact .inr ⟨e, hearlier he, hexempt⟩

example : globMatches "pkg/*/tests" "pkg/io/tests" = true := by decide +kernel

/-- Two spellings of one folder, the second with all packages of the first, and a pattern. -/
def loaderPlaces : List (String × List String) :=
  [("pkg/io", ["numpy.linalg"]), ("pkg/../pkg/io/", ["numpy", "pandas"]), ("pkg/*/tests", ["pytest"])]

theorem allows_numpy_in_loader :
    (loaderPlaces.map (·.1)).Nodup ∧ KeepsPackages ⟨"/", ["work"]⟩ loaderPlaces ∧
    (Exceptions.ofLists ⟨"/", ["work"]⟩ [] loaderPlaces).allows ⟨"/", ["work"]⟩ "numpy.random"
      ⟨"", ["pkg", "io", "load.py"]⟩ = true := by
  have hkeys : (loaderPlaces.map (·.1)).Nodup := by decide +kernel
  have hkept : KeepsPackages ⟨"/", ["work"]⟩ loaderPlaces := by
    unfold KeepsPackages Names
    decide +kernel
  refine ⟨hkeys, hkept, (allows_iff_isExempt hkeys hkept [] _ _).1.mpr (.inr ?_)⟩
  refine ⟨("pkg/io", ["numpy.linalg"]), mem_cons_self, ⟨_, mem_cons_self, ?_⟩, ?_⟩
  · decide +kernel
  · exact (covers_path (by decide +kernel)).mpr (by decide +kernel)

/-- A second spelling of a folder takes the packages of the first away. -/
theorem numpy_not_allowed_after_pandas :
    IsExempt ⟨"/", ["work"]⟩ [] [("./pkg", ["numpy"]), ("pkg", ["pandas"])] "numpy"
      ⟨"", ["pkg", "load.py"]⟩ ∧
    (Exceptions.ofLists ⟨"/", ["work"]⟩ [] [("./pkg", ["numpy"])]).allows ⟨"/", ["work"]⟩ "numpy"
      ⟨"", ["pkg", "load.py"]⟩ = true ∧
    (Exceptions.ofLists ⟨"/", ["work"]⟩ [] [("./pkg", ["numpy"]), ("pkg", ["pandas"])]).allows
      ⟨"/", ["work"]⟩ "numpy" ⟨"", ["pkg", "load.py"]⟩ = false := by
  refine ⟨.inr ⟨_, mem_cons_self, ⟨_, mem_cons_self, rfl⟩, ?_⟩, by decide +kernel,
    by decide +kernel⟩
  exact (covers_path (by decide +kernel)).mpr (by decide +kernel)

end Import

end AssetCatalog
