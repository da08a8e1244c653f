import AssetCatalog.Image.Allowlist
import AssetCatalog.Proofs.Fault

/-!
# Images that a list does not permit

A pattern is tried from the start of an image, and the match may end anywhere.
-/

namespace AssetCatalog

open List

namespace Regex

variable {r : Regex} {s e : Cursor} {g : Cursor → List Cursor} {low : Nat} {high : Option Nat}
  {isLazy : Bool} {fuel count : Nat} {i : String}

/-! ## Where a match may end -/

/-- The places that repetitions lead to, in the order in which they are tried. -/
def endsFrom (g : Cursor → List Cursor) (low : Nat) (high : Option Nat) (isLazy : Bool) :
    Nat → Nat → Cursor → List Cursor
  | 0, _, _ => []
  | fuel + 1, count, s =>
    let more := if (high.map fun n => decide (count < n)).getD true then
        (g s).flatMap fun s' =>
          if s'.after.length = s.after.length && low ≤ count then []
          else endsFrom g low high isLazy fuel (count + 1) s'
      else []
    if count < low then more else if isLazy then s :: more else more ++ [s]

/-- The place where an assertion is made, with what was captured, if the assertion holds. -/
def assertedAt (negated : Bool) (s : Cursor) (found : Option Cursor) : List Cursor :=
  if negated then if found.isNone then [s] else []
  else (found.map fun s' => { s with captures := s'.captures }).toList

/-- The places at which a match may end that starts at a place, in the order in which they are tried. -/
def ends : Regex → Cursor → List Cursor
  | .empty, s => [s]
  | .any options, s => (s.next fun c => options.dotAll || c ≠ '\n').toList
  | .oneOf options negated items, s =>
    (s.next fun c => items.any (SetItem.holds options c) != negated).toList
  | .place options p, s => if s.isAt options p then [s] else []
  | .seq a b, s => (ends a s).flatMap (ends b)
  | .alt a b, s => ends a s ++ ends b s
  | .repeated low high mode body, s =>
    let all := endsFrom (ends body) low high (mode = .lazy) (low + s.after.length + 2) 0 s
    if mode = .possessive then all.head?.toList else all
  | .group n body, s => (ends body s).map fun s' =>
    { s' with captures :=
        (n, (s'.before.take (s.after.length - s'.after.length)).reverse) :: s'.captures }
  | .reference options n, s => ((s.captures.lookup n).bind fun text =>
    s.nextAll (if options.ignoreCase then sameIgnoringCase options.ascii else fun c d => c = d)
      text).toList
  | .atomic body, s => (ends body s).head?.toList
  | .ahead negated body, s => assertedAt negated s (ends body s).head?
  | .behind negated n body, s => assertedAt negated s ((s.back n).bind fun s' => (ends body s').head?)
  | .ifGroup n yes no, s => if (s.captures.lookup n).isSome then ends yes s else ends no s

lemma findSome?_flatMap (xs : List Cursor) (g : Cursor → List Cursor) (k : Rest) :
    (xs.flatMap g).findSome? k = xs.findSome? fun s => (g s).findSome? k := by
  induction xs with
  | nil => rfl
  | cons x xs ih =>
    rw [flatMap_cons, findSome?_append, ih, findSome?_cons]
    cases (g x).findSome? k <;> rfl

lemma findSome?_toList (o : Option Cursor) (k : Rest) : o.toList.findSome? k = o.bind k := by
  cases o with
  | none => rfl
  | some s => exact findSome?_singleton

lemma findSome?_some (xs : List Cursor) : xs.findSome? some = xs.head? := by
  cases xs <;> rfl

lemma repeatFrom_eq {f : Rest → Rest} (h : ∀ k s, f k s = (g s).findSome? k) (k : Rest) :
    repeatFrom f low high isLazy k fuel count s =
      (endsFrom g low high isLazy fuel count s).findSome? k := by
  induction fuel generalizing count s with
  | zero => rfl
  | succ fuel ih =>
    have hmore (s' : Cursor) : (if s'.after.length = s.after.length && low ≤ count then none
        else repeatFrom f low high isLazy k fuel (count + 1) s') =
        (if s'.after.length = s.after.length && low ≤ count then []
          else endsFrom g low high isLazy fuel (count + 1) s').findSome? k := by
      split
      · rfl
      · exact ih
    have hfirst (xs : List Cursor) : (s :: xs).findSome? k = (k s).or (xs.findSome? k) := by
      rw [findSome?_cons]
      cases k s <;> rfl
    rw [repeatFrom, endsFrom, h]
    simp only [hmore, ← findSome?_flatMap]
    split_ifs <;> simp only [hfirst, findSome?_append, findSome?_nil, Option.orElse_eq_or,
      Option.none_or, Option.or_none]

lemma run_eq (r : Regex) (k : Rest) (s : Cursor) : run r k s = (ends r s).findSome? k := by
  induction r generalizing k s with
  | empty => exact findSome?_singleton.symm
  | any options => exact (findSome?_toList _ k).symm
  | oneOf options negated items => exact (findSome?_toList _ k).symm
  | place options p =>
    rw [run, ends]
    split
    · exact findSome?_singleton.symm
    · rfl
  | seq a b iha ihb =>
    rw [run, funext (ihb k), iha, ends, findSome?_flatMap]
  | alt a b iha ihb =>
    rw [run, iha, ihb, ends, findSome?_append]
    cases (ends a s).findSome? k <;> rfl
  | repeated low high mode body ih =>
    cases mode with
    | greedy => exact repeatFrom_eq ih k
    | «lazy» => exact repeatFrom_eq ih k
    | possessive =>
      rw [run, repeatFrom_eq ih, findSome?_some, ← findSome?_toList]
      rfl
  | group n body ih =>
    rw [run, ih, ends, findSome?_map]
    rfl
  | reference options n =>
    rw [run, ends, findSome?_toList]
    cases s.captures.lookup n <;> rfl
  | atomic body ih => rw [run, ih, findSome?_some, ends, findSome?_toList]
  | ahead negated body ih =>
    rw [run, ih, findSome?_some, ends]
    rcases (ends body s).head? with _ | s' <;> cases negated
    · rfl
    · exact findSome?_singleton.symm
    · exact findSome?_singleton.symm
    · rfl
  | behind negated n body ih =>
    rw [run, ends]
    simp only [ih, findSome?_some]
    rcases (s.back n).bind fun s' => (ends body s').head? with _ | s' <;> cases negated
    · rfl
    · exact findSome?_singleton.symm
    · exact findSome?_singleton.symm
    · rfl
  | ifGroup n yes no ihyes ihno =>
    rw [run, ends]
    split
    · exact ihyes k s
    · exact ihno k s

/-! ## Matches that end at the end -/

lemma mem_endsFrom_iff : e ∈ endsFrom g low high isLazy (fuel + 1) count s ↔
    low ≤ count ∧ e = s ∨ (∀ n ∈ high, count < n) ∧ ∃ s' ∈ g s,
      (s'.after.length = s.after.length → count < low) ∧
        e ∈ endsFrom g low high isLazy fuel (count + 1) s' := by
  have hhigh : (high.map fun n => decide (count < n)).getD true = true ↔ ∀ n ∈ high, count < n := by
    cases high <;> simp
  rw [endsFrom]
  simp only [hhigh]
  by_cases hmore : ∀ n ∈ high, count < n <;> by_cases hlow : count < low <;> cases isLazy <;>
    simp [hlow] <;> grind

lemma of_mem_endsFrom {P : Cursor → Prop} (hg : ∀ s, P s → ∀ e ∈ g s, P e) (hs : P s)
    (h : e ∈ endsFrom g low high isLazy fuel count s) : P e := by
  induction fuel generalizing count s with
  | zero => cases h
  | succ fuel ih =>
    rcases mem_endsFrom_iff.mp h with ⟨-, rfl⟩ | ⟨-, s', hs', -, h⟩
    · exact hs
    · exact ih (hg s hs s' hs') h

lemma mem_endsFrom_of_mem_ends_repeated {mode : Mode} {body : Regex}
    (h : e ∈ ends (.repeated low high mode body) s) :
    e ∈ endsFrom (ends body) low high (mode = .lazy) (low + s.after.length + 2) 0 s := by
  rw [ends] at h
  split at h
  · exact mem_of_head? (Option.mem_toList.mp h)
  · exact h

lemma suffix_of_next {p : Char → Bool} (h : s.next p = some e) : e.after <:+ s.after := by
  unfold Cursor.next at h
  split at h
  · next c cs hcs =>
    obtain ⟨-, h⟩ := Option.ite_none_right_eq_some.mp h
    cases h
    rw [hcs]
    exact suffix_cons c cs
  · cases h

lemma suffix_of_nextAll {same : Char → Char → Bool} {text : List Char}
    (h : s.nextAll same text = some e) : e.after <:+ s.after := by
  induction text generalizing s with
  | nil =>
    cases h
    exact suffix_rfl
  | cons c text ih =>
    obtain ⟨s', hs', h⟩ := Option.bind_eq_some_iff.mp h
    exact (ih h).trans (suffix_of_next hs')

lemma after_of_mem_assertedAt {negated : Bool} {found : Option Cursor}
    (h : e ∈ assertedAt negated s found) : e.after = s.after := by
  unfold assertedAt at h
  split_ifs at h
  · rw [mem_singleton.mp h]
  · cases h
  · obtain ⟨s', -, rfl⟩ := Option.map_eq_some_iff.mp (Option.mem_toList.mp h)
    rfl

lemma suffix_of_mem_ends (h : e ∈ ends r s) : e.after <:+ s.after := by
  induction r generalizing s e with
  | empty => rw [mem_singleton.mp h]
  | any options => exact suffix_of_next (Option.mem_toList.mp h)
  | oneOf options negated items => exact suffix_of_next (Option.mem_toList.mp h)
  | place options p =>
    rw [ends] at h
    split at h
    · rw [mem_singleton.mp h]
    · cases h
  | seq a b iha ihb =>
    obtain ⟨s', hs', h⟩ := mem_flatMap.mp h
    exact (ihb h).trans (iha hs')
  | alt a b iha ihb => exact (mem_append.mp h).elim iha ihb
  | repeated low high mode body ih =>
    refine of_mem_endsFrom (P := fun e => e.after <:+ s.after) ?_ suffix_rfl
      (mem_endsFrom_of_mem_ends_repeated h)
    exact fun s' hs' e he => (ih he).trans hs'
  | group n body ih =>
    obtain ⟨s', hs', rfl⟩ := mem_map.mp h
    exact (ih hs' :)
  | reference options n =>
    obtain ⟨text, -, h⟩ := Option.bind_eq_some_iff.mp (Option.mem_toList.mp h)
    exact suffix_of_nextAll h
  | atomic body ih => exact ih (mem_of_head? (Option.mem_toList.mp h))
  | ahead negated body => rw [after_of_mem_assertedAt h]
  | behind negated n body => rw [after_of_mem_assertedAt h]
  | ifGroup n yes no ihyes ihno =>
    rw [ends] at h
    split at h
    · exact ihyes h
    · exact ihno h

/-- Whether every way through an expression asks for the end of the text, or of its last line. -/
def isAnchored : Regex → Bool
  | .place options p => p = .textEnd || (p = .lineEnd && !options.multiline)
  | .seq a b => isAnchored a || isAnchored b
  | .alt a b => isAnchored a && isAnchored b
  | .repeated low _ _ body => low ≠ 0 && isAnchored body
  | .group _ body => isAnchored body
  | .atomic body => isAnchored body
  | .ifGroup _ yes no => isAnchored yes && isAnchored no
  | _ => false

lemma suffix_feed_of_isAnchored (hr : r.isAnchored) (h : e ∈ ends r s) : e.after <:+ ['\n'] := by
  induction r generalizing s e with
  | place options p =>
    rw [ends] at h
    split at h
    · next hat =>
      cases p <;> simp_all [isAnchored, Cursor.isAt]
      rcases hat with hat | hat <;> simp [hat]
    · cases h
  | seq a b iha ihb =>
    obtain ⟨s', hs', h⟩ := mem_flatMap.mp h
    rcases Bool.or_eq_true_iff.mp hr with hr | hr
    · exact (suffix_of_mem_ends h).trans (iha hr hs')
    · exact ihb hr h
  | alt a b iha ihb =>
    obtain ⟨ha, hb⟩ := Bool.and_eq_true_iff.mp hr
    exact (mem_append.mp h).elim (iha ha) (ihb hb)
  | repeated low high mode body ih =>
    obtain ⟨hlow, hbody⟩ := Bool.and_eq_true_iff.mp hr
    -- at least one repetition is made, and those behind it only go forward
    rcases mem_endsFrom_iff.mp (mem_endsFrom_of_mem_ends_repeated h) with ⟨hzero, -⟩ | ⟨-, s', hs', -, h⟩
    · simp [Nat.le_zero.mp hzero] at hlow
    · refine of_mem_endsFrom (P := fun e => e.after <:+ ['\n']) ?_ (ih hbody hs') h
      exact fun s' hs' e he => (suffix_of_mem_ends he).trans hs'
  | group n body ih =>
    obtain ⟨s', hs', rfl⟩ := mem_map.mp h
    exact (ih hr hs' :)
  | atomic body ih => exact ih hr (mem_of_head? (Option.mem_toList.mp h))
  | ifGroup n yes no ihyes ihno =>
    obtain ⟨hyes, hno⟩ := Bool.and_eq_true_iff.mp hr
    rw [ends] at h
    split at h
    · exact ihyes hyes h
    · exact ihno hno h
  | _ => cases hr

def start (i : String) : Cursor := { before := [], after := i.toList }

def Begins (r : Regex) (i : String) : Prop := ends r (start i) ≠ []

def Covers (r : Regex) (i : String) : Prop := ∃ e ∈ ends r (start i), e.after = []
deriving Decidable

lemma matchesStart_iff : r.matchesStart i ↔ r.Begins i := by
  rw [matchesStart, run_eq, findSome?_some, Begins]
  exact isSome_head?

lemma Covers.begins (h : r.Covers i) : r.Begins i := by
  obtain ⟨e, he, -⟩ := h
  exact ne_nil_of_mem he

lemma Begins.covers (h : r.Begins i) (hr : r.isAnchored) (hi : i.toList.getLast? ≠ some '\n') :
    r.Covers i := by
  obtain ⟨e, he⟩ := exists_mem_of_ne_nil _ h
  refine ⟨e, he, ?_⟩
  rcases suffix_cons_iff.mp (suffix_feed_of_isAnchored hr he) with hfeed | hnil
  · obtain ⟨t, ht⟩ := suffix_of_mem_ends he
    refine absurd ?_ hi
    rw [show i.toList = t ++ ['\n'] from hfeed ▸ ht.symm, getLast?_concat]
  · exact suffix_nil.mp hnil

end Regex

namespace Image

variable {a : Allowlist} {i : String}

lemma isValid_text (a : Allowlist) (i : String) :
    isValid (some a) (.text i) = .ok (i.isEmpty || a.permits i) := by
  unfold isValid
  cases h : i.isEmpty <;> simp [Value.truthy, h]

def isRefused (a : Allowlist) : Value → Bool
  | .text i => !(i.isEmpty || a.permits i)
  | _ => false

lemma invalidOf_texts (a : Allowlist) (images : List String) :
    invalidOf (some a) (images.map .text) =
      .ok ((images.filter fun i => !(i.isEmpty || a.permits i)).map .text) := by
  have hrefused (v : Value) (hv : v ∈ images.map Value.text) :
      (do let ok ← isValid (some a) v; pure !ok) = .ok (isRefused a v) := by
    obtain ⟨i, -, rfl⟩ := mem_map.mp hv
    rw [isValid_text]
    rfl
  rw [invalidOf, filterM_eq_ok hrefused, filter_map]
  rfl

lemma permits_eq_false_iff : a.permits i = false ↔
    i ∉ a.images ∧ ∀ p ∈ a.patterns, ¬ p.2.Begins i := by
  simp [Allowlist.permits, ← Regex.matchesStart_iff]

/-- An image that is not to be permitted: it is neither empty nor listed, and no pattern covers it. -/
def IsForbidden (a : Allowlist) (i : String) : Prop :=
  i ≠ "" ∧ i ∉ a.images ∧ ∀ p ∈ a.patterns, ¬ p.2.Covers i
deriving Decidable

/-- The images that are refused are those that are neither empty nor listed and that no pattern begins.
They are the forbidden ones exactly if no pattern begins a forbidden image without covering it, as it
is where the patterns are anchored and no image ends with a line feed. -/
theorem invalidOf_eq_forbidden_iff (a : Allowlist) (images : List String) :
    ∃ invalid : List String, invalidOf (some a) (images.map .text) = .ok (invalid.map .text) ∧
      invalid.Sublist images ∧
      (∀ i, i ∈ invalid ↔ i ∈ images ∧ i ≠ "" ∧ i ∉ a.images ∧ ∀ p ∈ a.patterns, ¬ p.2.Begins i) ∧
      ((∀ i, i ∈ invalid ↔ i ∈ images ∧ IsForbidden a i) ↔
        ∀ i ∈ images, IsForbidden a i → ∀ p ∈ a.patterns, ¬ p.2.Begins i) ∧
      ((∀ p ∈ a.patterns, p.2.isAnchored = true) → (∀ i ∈ images, i.toList.getLast? ≠ some '\n') →
        ∀ i, i ∈ invalid ↔ i ∈ images ∧ IsForbidden a i) := by
  have hrefused (i : String) : i ∈ (images.filter fun i => !(i.isEmpty || a.permits i)) ↔
      i ∈ images ∧ i ≠ "" ∧ i ∉ a.images ∧ ∀ p ∈ a.patterns, ¬ p.2.Begins i := by
    simp [mem_filter, permits_eq_false_iff]
  have hforbidden : (∀ i, i ∈ (images.filter fun i => !(i.isEmpty || a.permits i)) ↔
      i ∈ images ∧ IsForbidden a i) ↔
        ∀ i ∈ images, IsForbidden a i → ∀ p ∈ a.patterns, ¬ p.2.Begins i := by
    simp only [hrefused]
    constructor
    · intro h i hi hforbidden
      exact ((h i).mpr ⟨hi, hforbidden⟩).2.2.2
    · intro h i
      refine and_congr_right fun hi => ⟨?_, fun hforbidden => ?_⟩
      · rintro ⟨hne, hlisted, hbegins⟩
        exact ⟨hne, hlisted, fun p hp hcovers => hbegins p hp hcovers.begins⟩
      · exact ⟨hforbidden.1, hforbidden.2.1, h i hi hforbidden⟩
  refine ⟨_, invalidOf_texts a images, filter_sublist, hrefused, hforbidden, ?_⟩
  intro hanchored hfeed
  refine hforbidden.mpr fun i hi hi' p hp hbegins => ?_
  exact hi'.2.2 p hp (hbegins.covers (hanchored p hp) (hfeed i hi))

example : Allowlist.standard.permits "python:3.11" = true := by decide +kernel

theorem invalidOf_standard : (∀ p ∈ Allowlist.standard.patterns, p.2.isAnchored = true) ∧
    ∃ invalid : List String,
      invalidOf (some .standard) [.text "python:3.11", .text "quay.io/python:3.11"] =
        .ok (invalid.map .text) ∧
      ∀ i, i ∈ invalid ↔ i ∈ ["python:3.11", "quay.io/python:3.11"] ∧ IsForbidden .standard i := by
  have hanchored : ∀ p ∈ Allowlist.standard.patterns, p.2.isAnchored = true := by decide +kernel
  obtain ⟨invalid, hinvalid, -, -, -, hforbidden⟩ :=
    invalidOf_eq_forbidden_iff .standard ["python:3.11", "quay.io/python:3.11"]
  exact ⟨hanchored, invalid, hinvalid, hforbidden hanchored (by decide)⟩

def looseList : Value := .map [(.text "allowed_image_patterns", .list [.text "python:3"])]

/-- An image that goes on behind what a pattern asks for is permitted. -/
theorem forbidden_image_permitted : ∃ a, Allowlist.ofValue "list.yaml" looseList = .ok a ∧
    IsForbidden a "python:3.11-evil" ∧ invalidOf (some a) [.text "python:3.11-evil"] = .ok [] := by
  have h : ((Allowlist.ofValue "list.yaml" looseList).toOption.any fun a =>
      decide (IsForbidden a "python:3.11-evil") && a.permits "python:3.11-evil") = true := by
    decide +kernel
  rcases hread : Allowlist.ofValue "list.yaml" looseList with e | a <;> rw [hread] at h
  · cases h
  · obtain ⟨hforbidden, hpermits⟩ := Bool.and_eq_true_iff.mp h
    refine ⟨a, rfl, of_decide_eq_true hforbidden, (invalidOf_texts a ["python:3.11-evil"]).trans ?_⟩
    simp [hpermits]

end Image

end AssetCatalog
