import AssetCatalog.Image.Reference
import AssetCatalog.Proofs.PermittedImages

/-!
# The tags and the names of images

A pattern without references and assertions reads the words of a language, whatever it tries first.
-/

namespace AssetCatalog

open List

namespace Regex

variable {r a b : Regex} {s e : Cursor} {g : Cursor → List Cursor} {low : Nat} {high : Option Nat}
  {isLazy : Bool} {fuel count n : Nat} {i : String} {w : List Char} {p : Char → Bool}
  {L M : Language Char}

lemma matchesWhole_iff : r.matchesWhole i ↔ r.Covers i := by
  rw [matchesWhole, run_eq, findSome?_isSome_iff]
  simp [Covers, start]

/-- The words of one character of a kind. -/
def chars (p : Char → Bool) : Language Char := { w | ∃ c, p c ∧ w = [c] }

lemma mem_chars : w ∈ chars p ↔ ∃ c, p c ∧ w = [c] := Iff.rfl

lemma mem_chars_pow : w ∈ chars p ^ n ↔ w.length = n ∧ ∀ c ∈ w, p c := by
  induction n generalizing w with
  | zero =>
    rw [pow_zero, Language.mem_one, length_eq_zero_iff]
    constructor
    · intro h
      simp [h]
    · intro h
      exact h.1
  | succ n ih =>
    rw [pow_succ', Language.mem_mul]
    constructor
    · rintro ⟨-, ⟨c, hc, rfl⟩, v, hv, rfl⟩
      obtain ⟨hlength, hall⟩ := ih.mp hv
      simpa [hlength, hc] using hall
    · intro h
      obtain ⟨c, v, rfl⟩ := exists_cons_of_length_eq_add_one h.1
      rw [length_cons, Nat.add_right_cancel_iff, forall_mem_cons] at h
      exact ⟨[c], ⟨c, h.2.1, rfl⟩, v, ih.mpr ⟨h.1, h.2.2⟩, rfl⟩

/-- The words of some repetitions. -/
def times (low : Nat) (high : Option Nat) (L : Language Char) : Language Char :=
  { w | ∃ n, low ≤ n ∧ (∀ m ∈ high, n ≤ m) ∧ w ∈ L ^ n }

lemma mem_times : w ∈ times low high L ↔ ∃ n, low ≤ n ∧ (∀ m ∈ high, n ≤ m) ∧ w ∈ L ^ n := Iff.rfl

/-- The words that an expression reads, whatever stands around them. -/
def Reads (r : Regex) (L : Language Char) : Prop :=
  ∀ s t, (∃ e ∈ ends r s, e.after = t) ↔ ∃ w ∈ L, s.after = w ++ t

namespace Reads

lemma oneOf (options : Options) (negated : Bool) (items : List SetItem) :
    (Regex.oneOf options negated items).Reads
      (chars fun c => items.any (SetItem.holds options c) != negated) := by
  intro s t
  simp only [ends, Option.mem_toList, Cursor.next]
  cases s.after with
  | nil => simp [mem_chars]
  | cons c cs => by_cases hc : items.any (SetItem.holds options c) = negated <;> simp [mem_chars, hc]

lemma seq (ha : a.Reads L) (hb : b.Reads M) : (Regex.seq a b).Reads (L * M) := by
  intro s t
  simp only [ends, mem_flatMap, Language.mem_mul]
  constructor
  · rintro ⟨e, ⟨s', hs', he⟩, ht⟩
    obtain ⟨v, hv, hafter⟩ := (ha s _).mp ⟨s', hs', rfl⟩
    obtain ⟨w, hw, hafter'⟩ := (hb s' t).mp ⟨e, he, ht⟩
    exact ⟨v ++ w, ⟨v, hv, w, hw, rfl⟩, by rw [hafter, hafter', append_assoc]⟩
  · rintro ⟨-, ⟨v, hv, w, hw, rfl⟩, hafter⟩
    rw [append_assoc] at hafter
    obtain ⟨s', hs', hs⟩ := (ha s _).mpr ⟨v, hv, hafter⟩
    obtain ⟨e, he, ht⟩ := (hb s' t).mpr ⟨w, hw, hs⟩
    exact ⟨e, ⟨s', hs', he⟩, ht⟩

/-- The induction is on the repetitions that are left; each of them reads something, so that the fuel
lasts and no repetition is given up. -/
lemma endsFrom (h : r.Reads L) (hne : [] ∉ L) (hcount : ∀ n ∈ high, count ≤ n)
    (hfuel : s.after.length < fuel) (t : List Char) :
    (∃ e ∈ endsFrom (ends r) low high isLazy fuel count s, e.after = t) ↔
      ∃ n, low ≤ count + n ∧ (∀ m ∈ high, count + n ≤ m) ∧ ∃ w ∈ L ^ n, s.after = w ++ t := by
  induction fuel generalizing count s with
  | zero => omega
  | succ fuel ih =>
    have hshort {s' : Cursor} {v : List Char} (hv : v ∈ L) (hs : s.after = v ++ s'.after) :
        s'.after.length < s.after.length := by
      have hpos := length_pos_of_ne_nil (ne_of_mem_of_not_mem hv hne)
      rw [hs, length_append]
      omega
    simp only [mem_endsFrom_iff]
    constructor
    · rintro ⟨e, ⟨hlow, rfl⟩ | ⟨hhigh, s', hs', -, he⟩, rfl⟩
      · exact ⟨0, hlow, hcount, [], by simp [Language.mem_one], rfl⟩
      · obtain ⟨v, hv, hafter⟩ := (h s _).mp ⟨s', hs', rfl⟩
        have hfuel' := hshort hv hafter
        obtain ⟨n, hlow, hn, w, hw, hafter'⟩ := (ih hhigh (by omega)).mp ⟨e, he, rfl⟩
        rw [Nat.succ_add_eq_add_succ] at hlow hn
        refine ⟨n + 1, hlow, hn, v ++ w, ?_, by rw [hafter, hafter', append_assoc]⟩
        rw [pow_succ']
        exact Language.append_mem_mul hv hw
    · rintro ⟨n, hlow, hhigh, w, hw, hafter⟩
      cases n with
      | zero =>
        rw [pow_zero, Language.mem_one] at hw
        exact ⟨s, .inl ⟨hlow, rfl⟩, by rw [hafter, hw, nil_append]⟩
      | succ n =>
        rw [pow_succ', Language.mem_mul] at hw
        obtain ⟨u, hu, v, hv, rfl⟩ := hw
        rw [append_assoc] at hafter
        obtain ⟨s', hs', hafter'⟩ := (h s _).mpr ⟨u, hu, hafter⟩
        have hfuel' := hshort hu (hafter'.symm ▸ hafter)
        have hmore (m : Nat) (hm : m ∈ high) : count + 1 ≤ m := by
          have := hhigh m hm
          omega
        rw [Nat.add_comm n, ← Nat.add_assoc] at hlow hhigh
        obtain ⟨e, he, ht⟩ := (ih hmore (by omega)).mpr ⟨n, hlow, hhigh, v, hv, hafter'⟩
        exact ⟨e, .inr ⟨hmore, s', hs', fun heq => by omega, he⟩, ht⟩

lemma repeated (h : r.Reads L) (hne : [] ∉ L) :
    (Regex.repeated low high .greedy r).Reads (times low high L) := by
  intro s t
  rw [ends, if_neg (by decide), h.endsFrom hne (by simp) (by omega)]
  simp only [Nat.zero_add, mem_times]
  constructor
  · rintro ⟨n, hlow, hhigh, w, hw, hafter⟩
    exact ⟨w, ⟨n, hlow, hhigh, hw⟩, hafter⟩
  · rintro ⟨w, ⟨n, hlow, hhigh, hw⟩, hafter⟩
    exact ⟨n, hlow, hhigh, w, hw, hafter⟩

lemma matchesWhole_iff (h : r.Reads L) : r.matchesWhole i ↔ i.toList ∈ L := by
  rw [Regex.matchesWhole_iff, Covers, h (Regex.start i) []]
  simp [Regex.start]

end Reads

end Regex

namespace Image

open Regex

variable {s : String}

def isWordChar (c : Char) : Bool := c.isAlphanum || c = '_'

def isInner (c : Char) : Bool := isWordChar c || c = '.' || c = '-'

lemma reads_oneChar {items : List SetItem} {p : Char → Bool}
    (h : ∀ c, items.any (SetItem.holds { ascii := true } c) = p c) : (oneChar items).Reads (chars p) := by
  have hreads := Reads.oneOf { ascii := true } false items
  simp only [h, Bool.bne_false] at hreads
  exact hreads

lemma isTag_iff : isTag s ↔ 1 ≤ s.length ∧ s.length ≤ 128 ∧ (∀ c ∈ s.toList, isInner c) ∧
    (∀ c ∈ s.toList.head?, isWordChar c) ∧ ∀ c ∈ s.toList.getLast?, isWordChar c := by
  have hword : (oneChar [.category .word false]).Reads (chars isWordChar) :=
    reads_oneChar fun c => by simp [SetItem.holds, SetItem.holdsExactly, Category.holds, isWordChar]
  have hinner : (oneChar [.category .word false, .char '.', .char '-']).Reads (chars isInner) :=
    reads_oneChar fun c => by
      simp [SetItem.holds, SetItem.holdsExactly, Category.holds, isWordChar, isInner, Bool.or_assoc]
  have hne : [] ∉ times 0 (some 126) (chars isInner) * chars isWordChar := by
    rw [Language.mem_mul]
    rintro ⟨a, -, -, ⟨c, -, rfl⟩, h⟩
    simp at h
  have hreads : tagPattern.Reads (chars isWordChar *
      times 0 (some 1) (times 0 (some 126) (chars isInner) * chars isWordChar)) :=
    hword.seq (((hinner.repeated (by simp [mem_chars])).seq hword).repeated hne)
  rw [isTag, hreads.matchesWhole_iff, ← String.length_toList]
  generalize s.toList = cs
  simp only [Language.mem_mul, mem_times]
  constructor
  · rintro ⟨-, ⟨c, hc, rfl⟩, v, ⟨n, -, hn, hv⟩, rfl⟩
    have hn := hn 1 rfl
    interval_cases n
    · rw [pow_zero, Language.mem_one] at hv
      simp [hv, isInner, hc]
    · rw [pow_one, Language.mem_mul] at hv
      obtain ⟨m, ⟨k, -, hk, hpow⟩, -, ⟨d, hd, rfl⟩, rfl⟩ := hv
      obtain ⟨rfl, hm⟩ := mem_chars_pow.mp hpow
      have hk := hk 126 rfl
      refine ⟨by simp, by simp; omega, ?_, by simpa using hc, ?_⟩
      · simpa [isInner, hc, hd, or_imp, forall_and] using hm
      · simpa [getLast?_append, getLast?_cons] using hd
  · rintro ⟨hpos, hlength, hall, hhead, hlast⟩
    obtain ⟨c, v, rfl⟩ := exists_cons_of_length_pos hpos
    refine ⟨[c], ⟨c, hhead c rfl, rfl⟩, v, ?_, rfl⟩
    rcases eq_nil_or_concat v with rfl | ⟨m, d, rfl⟩
    · exact ⟨0, le_rfl, by simp, by simp⟩
    · refine ⟨1, Nat.zero_le 1, by simp, ?_⟩
      rw [pow_one, Language.mem_mul]
      refine ⟨m, ⟨m.length, Nat.zero_le _, ?_, mem_chars_pow.mpr ⟨rfl, ?_⟩⟩, [d], ⟨d, ?_, rfl⟩, by simp⟩
      · simp at hlength ⊢
        omega
      · exact fun x hx => hall x (by simp [hx])
      · exact hlast d (by simp [getLast?_append, getLast?_cons])

lemma isName_iff : isName s ↔ ∃ c cs, s.toList = c :: cs ∧
    (c.isLower || c.isDigit || c = '_') ∧ ∀ d ∈ cs, isInner d := by
  have hfirst : (oneChar [.range 'a' 'z', .range '0' '9', .char '_']).Reads
      (chars fun c => c.isLower || c.isDigit || c = '_') :=
    reads_oneChar fun c => by
      simp [SetItem.holds, SetItem.holdsExactly, Char.isLower, Char.isDigit, Char.le_def, Bool.or_assoc]
  have hinner : (oneChar [.range 'A' 'Z', .range 'a' 'z', .range '0' '9', .char '_', .char '.',
      .char '-']).Reads (chars isInner) :=
    reads_oneChar fun c => by
      simp [SetItem.holds, SetItem.holdsExactly, isInner, isWordChar, Char.isAlphanum, Char.isAlpha,
        Char.isUpper, Char.isLower, Char.isDigit, Char.le_def, Bool.or_assoc]
  have hreads : namePattern.Reads (chars (fun c => c.isLower || c.isDigit || c = '_') *
      times 0 none (chars isInner)) := hfirst.seq (hinner.repeated (by simp [mem_chars]))
  rw [isName, hreads.matchesWhole_iff, Language.mem_mul]
  constructor
  · rintro ⟨-, ⟨c, hc, rfl⟩, v, ⟨n, -, -, hv⟩, h⟩
    exact ⟨c, v, h.symm, hc, (mem_chars_pow.mp hv).2⟩
  · rintro ⟨c, v, h, hc, hv⟩
    exact ⟨[c], ⟨c, hc, rfl⟩, v, ⟨v.length, Nat.zero_le _, by simp, mem_chars_pow.mpr ⟨rfl, hv⟩⟩, h.symm⟩

lemma checkTag_eq_ok : checkTag s = .ok () ↔ isTag s := by
  by_cases h : isTag s <;> simp [checkTag, h]

lemma checkName_eq_ok : checkName s = .ok () ↔ isName s := by
  by_cases h : isName s <;> simp [checkName, h]

/-- The tags and the names that the checks let pass. -/
theorem checks_accept_iff (s : String) :
    (checkTag s = .ok () ↔ 1 ≤ s.length ∧ s.length ≤ 128 ∧ (∀ c ∈ s.toList, isInner c) ∧
      (∀ c ∈ s.toList.head?, isWordChar c) ∧ ∀ c ∈ s.toList.getLast?, isWordChar c) ∧
    (checkName s = .ok () ↔ ∃ c cs, s.toList = c :: cs ∧ (c.isLower || c.isDigit || c = '_') ∧
      ∀ d ∈ cs, isInner d) := by
  rw [checkTag_eq_ok, checkName_eq_ok]
  exact ⟨isTag_iff, isName_iff⟩

end Image

end AssetCatalog
