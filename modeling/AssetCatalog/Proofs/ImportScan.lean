import AssetCatalog.Import.Statement
import AssetCatalog.Proofs.Text

/-!
# The imports that run when a module is loaded

Statements have addresses, one number for each level, in the order in which they stand.
-/

namespace AssetCatalog

open List

variable {a b : List Nat} {below : List (List Nat)}

namespace Source.Stmt

/-- The statements right below a statement, as they stand. -/
def children : Stmt → List Stmt
  | .function _ _ _ _ body => body
  | .classDef _ body => body
  | .branch body orelse => body ++ orelse
  | .loop body orelse => body ++ orelse
  | .scope body => body
  | .guarded body handlers orelse final => body ++ (handlers.flatten ++ (orelse ++ final))
  | .choice cases => cases.flatten
  | .imports .. => []
  | .importsFrom .. => []
  | .expression _ => []
  | .other => []

def isDefinition : Stmt → Bool
  | .function .. => true
  | .classDef .. => true
  | _ => false

/-- Imports that do not start from the place of the module itself. -/
def isAbsoluteImport : Stmt → Bool
  | .imports .. => true
  | .importsFrom _ level _ => level = 0
  | _ => false

/-- The statements on the way to an address, the one that stands there being the last. -/
def way : List Stmt → List Nat → Option (List Stmt)
  | _, [] => some []
  | ss, i :: a => ss[i]?.bind fun s => (way s.children a).map (s :: ·)

lemma way_cons_ne (ss : List Stmt) (i : Nat) (a : List Nat) : way ss (i :: a) ≠ some [] := by
  simp [way, Option.bind_eq_some_iff]

lemma sizeOf_append_le (a b : List Stmt) : sizeOf (a ++ b) ≤ sizeOf a + sizeOf b := by
  induction a with
  | nil => simp
  | cons s a ih =>
    simp only [cons_append, List.cons.sizeOf_spec]
    omega

lemma sizeOf_flatten_le (bs : List (List Stmt)) : sizeOf bs.flatten ≤ sizeOf bs := by
  induction bs with
  | nil => simp
  | cons b bs ih =>
    have := sizeOf_append_le b bs.flatten
    simp only [flatten_cons, List.cons.sizeOf_spec]
    omega

lemma sizeOf_children_le (s : Stmt) : sizeOf s.children ≤ sizeOf s := by
  cases s with
  | branch b o | loop b o =>
    have := sizeOf_append_le b o
    simp only [children, branch.sizeOf_spec, loop.sizeOf_spec]
    omega
  | guarded b hs o e =>
    have := sizeOf_append_le b (hs.flatten ++ (o ++ e))
    have := sizeOf_append_le hs.flatten (o ++ e)
    have := sizeOf_append_le o e
    have := sizeOf_flatten_le hs
    simp only [children, guarded.sizeOf_spec]
    omega
  | choice cs =>
    have := sizeOf_flatten_le cs
    simp only [children, choice.sizeOf_spec]
    omega
  | _ => simp [children] <;> omega

end Source.Stmt

namespace Import

open Source (Stmt)

def packageOf (module : String) : String := String.ofList (module.toList.takeWhile (· ≠ '.'))

lemma topName_eq (module : String) : topName module = packageOf module := by
  have hfree : '.' ∉ module.toList.takeWhile (· ≠ '.') := fun h => by
    simpa using mem_takeWhile_imp h
  have hcut := takeWhile_append_dropWhile (p := (· ≠ '.')) (l := module.toList)
  cases hrest : module.toList.dropWhile (· ≠ '.') with
  | nil =>
    rw [hrest, append_nil] at hcut
    rw [hcut] at hfree
    rw [topName, packageOf, hcut, String.ofList_toList]
    exact congrArg (·.headD "") (Text.split_of_notMem '.' module hfree)
  | cons c rest =>
    have hhead := head?_dropWhile_not (· ≠ '.') module.toList
    rw [hrest] at hhead
    obtain rfl : c = '.' := by simpa using hhead
    rw [topName, Text.split, ← hcut, hrest]
    rw [show ".".toList = ['.'] from rfl, Text.splitList_append '.' _ rest hfree]
    rfl

def importsOf : Stmt → List TopImport
  | .imports line modules => modules.map fun m => ⟨packageOf m, line⟩
  | .importsFrom line level module =>
    if level = 0 then (module.toList.filter (· ≠ "")).map fun m => ⟨packageOf m, line⟩ else []
  | _ => []

def importsAt (body : List Stmt) (a : List Nat) : List TopImport :=
  (((Stmt.way body a).bind List.getLast?).map importsOf).getD []

/-- An import stands at the address, and no statement that it lies in is a function or a class. -/
def IsTopImport (body : List Stmt) (a : List Nat) : Prop :=
  ∃ above s, Stmt.way body a = some (above ++ [s]) ∧ s.isAbsoluteImport = true ∧
    ∀ d ∈ above, d.isDefinition = false

/-- Addresses in the order of the statements: all those of imports outside definitions, and no
other. What these statements import is what is found. -/
structure IsScan (body : List Stmt) (places : List (List Nat)) : Prop where
  ordered : places.Pairwise (· < ·)
  mem_iff : ∀ a, a ∈ places ↔ IsTopImport body a
  found : ofBlock body = places.flatMap (importsAt body)

lemma ofBlock_append (a b : List Stmt) : ofBlock (a ++ b) = ofBlock a ++ ofBlock b := by
  induction a with
  | nil => simp [ofBlock]
  | cons s a ih => simp [ofBlock, ih]

lemma ofBlocks_eq (bs : List (List Stmt)) : ofBlocks bs = ofBlock bs.flatten := by
  induction bs with
  | nil => simp [ofBlock, ofBlocks]
  | cons b bs ih => simp [ofBlocks, ofBlock_append, ih]

lemma ofStmt_eq (s : Stmt) :
    ofStmt s = importsOf s ++ if s.isDefinition then [] else ofBlock s.children := by
  cases s with
  | importsFrom line level module =>
    cases module with
    | none => simp [ofStmt, importsOf, Stmt.children, ofBlock]
    | some m =>
      by_cases hlevel : level = 0 <;> by_cases hm : m = "" <;>
        simp [ofStmt, importsOf, Stmt.children, ofBlock, topName_eq, hm]
  | _ =>
    simp [ofStmt, importsOf, Stmt.isDefinition, Stmt.children, ofBlock, ofBlock_append, ofBlocks_eq,
      topName_eq]

section Addresses

variable (s : Stmt) (ss : List Stmt)

lemma isTopImport_here_iff (a : List Nat) : IsTopImport (s :: ss) (0 :: a) ↔
      a = [] ∧ s.isAbsoluteImport ∨ s.isDefinition = false ∧ IsTopImport s.children a := by
  simp only [IsTopImport, Stmt.way, getElem?_cons_zero, Option.bind_some, Option.map_eq_some_iff]
  constructor
  · rintro ⟨above, t, ⟨rest, hrest, hcons⟩, himport, habove⟩
    cases above with
    | nil =>
      obtain ⟨rfl, rfl⟩ := List.cons.inj hcons
      cases a with
      | nil => exact .inl ⟨rfl, himport⟩
      | cons i a => exact absurd hrest (Stmt.way_cons_ne _ i a)
    | cons d above =>
      obtain ⟨rfl, rfl⟩ := List.cons.inj hcons
      obtain ⟨hs, habove⟩ := forall_mem_cons.mp habove
      exact .inr ⟨hs, above, t, hrest, himport, habove⟩
  · rintro (⟨rfl, himport⟩ | ⟨hs, above, t, hway, himport, habove⟩)
    · exact ⟨[], s, ⟨[], rfl, rfl⟩, himport, by simp⟩
    · exact ⟨s :: above, t, ⟨_, hway, rfl⟩, himport, forall_mem_cons.mpr ⟨hs, habove⟩⟩

lemma isTopImport_next_iff (i : Nat) (a : List Nat) :
    IsTopImport (s :: ss) ((i + 1) :: a) ↔ IsTopImport ss (i :: a) := by
  simp [IsTopImport, Stmt.way]

lemma not_isTopImport_nil : ¬IsTopImport ss [] := by
  rintro ⟨above, s, hway, -⟩
  simp [Stmt.way] at hway

lemma importsAt_here : importsAt (s :: ss) [0] = importsOf s := by
  simp [importsAt, Stmt.way]

lemma importsAt_below (ha : a ≠ []) : importsAt (s :: ss) (0 :: a) = importsAt s.children a := by
  obtain ⟨i, a, rfl⟩ := exists_cons_of_ne_nil ha
  have hway : Stmt.way (s :: ss) (0 :: i :: a) = (Stmt.way s.children (i :: a)).map (s :: ·) := by
    rw [Stmt.way, getElem?_cons_zero, Option.bind_some]
  rw [importsAt, importsAt, hway]
  rcases hbelow : Stmt.way s.children (i :: a) with _ | _ | ⟨t, rest⟩
  · rfl
  · exact absurd hbelow (Stmt.way_cons_ne s.children i a)
  · rfl

lemma importsAt_next (i : Nat) (a : List Nat) :
    importsAt (s :: ss) ((i + 1) :: a) = importsAt ss (i :: a) := by
  simp [importsAt, Stmt.way]

end Addresses

variable {s : Stmt}

lemma importsOf_of_not (h : s.isAbsoluteImport = false) : importsOf s = [] := by
  cases s <;> simp_all [importsOf, Stmt.isAbsoluteImport]

/-- The address as it is with one more statement in front. -/
def next : List Nat → List Nat
  | [] => []
  | i :: a => (i + 1) :: a

/-- The addresses in a block whose first statement has the addresses `inner` at and below it. -/
def joined (inner after : List (List Nat)) : List (List Nat) :=
  inner.map (0 :: ·) ++ after.map next

lemma next_lt_next (h : a < b) : next a < next b := by
  cases b with
  | nil => exact absurd h (not_lt_nil a)
  | cons j b =>
    cases a with
    | nil => exact nil_lt_cons _ _
    | cons i a =>
      simp only [next, cons_lt_cons_iff, Nat.add_lt_add_iff_right, Nat.add_right_cancel_iff] at h ⊢
      exact h

lemma cons_zero_lt_next (a : List Nat) (hb : b ≠ []) : 0 :: a < next b := by
  obtain ⟨j, b, rfl⟩ := exists_cons_of_ne_nil hb
  exact cons_lt_cons_iff.mpr (.inl (Nat.succ_pos j))

lemma next_eq_cons_iff {i : Nat} : next b = i :: a ↔ ∃ j, i = j + 1 ∧ b = j :: a := by
  cases b <;> simp [next, eq_comm]

lemma pairwise_joined {inner after : List (List Nat)} (hinner : inner.Pairwise (· < ·))
    (hafter : after.Pairwise (· < ·)) (hne : ∀ a ∈ after, a ≠ []) :
    (joined inner after).Pairwise (· < ·) := by
  refine pairwise_append.mpr ⟨hinner.map _ fun a b h => cons_lt_cons_self.mpr h,
    hafter.map _ fun a b h => next_lt_next h, ?_⟩
  intro a ha b hb
  obtain ⟨a, -, rfl⟩ := mem_map.mp ha
  obtain ⟨b, hmem, rfl⟩ := mem_map.mp hb
  exact cons_zero_lt_next a (hne b hmem)

lemma IsScan.ne_nil {ss : List Stmt} {places : List (List Nat)} (h : IsScan ss places) :
    ∀ a ∈ places, a ≠ [] := by
  rintro a ha rfl
  exact not_isTopImport_nil ss ((h.mem_iff []).mp ha)

/-- The addresses at and below a statement, from those below it. -/
def within (s : Stmt) (below : List (List Nat)) : List (List Nat) :=
  (if s.isAbsoluteImport then [[]] else []) ++ if s.isDefinition then [] else below

lemma pairwise_within (h : IsScan s.children below) : (within s below).Pairwise (· < ·) := by
  refine pairwise_append.mpr ⟨by split <;> simp, ?_, ?_⟩
  · split
    · exact List.Pairwise.nil
    · exact h.ordered
  · intro a ha b hb
    obtain rfl : a = [] := by
      split at ha
      · simpa using ha
      · cases ha
    split at hb
    · cases hb
    · obtain ⟨i, b, rfl⟩ := exists_cons_of_ne_nil (h.ne_nil b hb)
      exact nil_lt_cons i b

lemma mem_within (h : IsScan s.children below) (ss : List Stmt) (a : List Nat) :
    a ∈ within s below ↔ IsTopImport (s :: ss) (0 :: a) := by
  rw [isTopImport_here_iff, ← h.mem_iff, within]
  by_cases himport : s.isAbsoluteImport = true <;> by_cases hdef : s.isDefinition = true <;>
    simp [himport]

lemma ofStmt_eq_flatMap (h : IsScan s.children below) (ss : List Stmt) :
    ofStmt s = (within s below).flatMap fun a => importsAt (s :: ss) (0 :: a) := by
  have hbelow : below.flatMap (fun a => importsAt (s :: ss) (0 :: a)) = ofBlock s.children := by
    rw [h.found]
    exact flatMap_congr fun a ha => importsAt_below s ss (h.ne_nil a ha)
  have hself : (if s.isAbsoluteImport then [[]] else []).flatMap
      (fun a => importsAt (s :: ss) (0 :: a)) = importsOf s := by
    split
    · simp [importsAt_here]
    · next himport => rw [importsOf_of_not (Bool.eq_false_iff.mpr himport), flatMap_nil]
  rw [ofStmt_eq, within, flatMap_append, hself]
  split
  · rfl
  · rw [hbelow]

lemma IsScan.cons {ss : List Stmt} {after : List (List Nat)} (hbelow : IsScan s.children below)
    (hafter : IsScan ss after) : IsScan (s :: ss) (joined (within s below) after) where
  ordered := pairwise_joined (pairwise_within hbelow) hafter.ordered hafter.ne_nil
  mem_iff a := by
    simp only [joined, mem_append, mem_map]
    rcases a with _ | ⟨_ | i, a⟩
    · simp only [reduceCtorEq, and_false, exists_false, false_or, not_isTopImport_nil, iff_false]
      rintro ⟨_ | ⟨i, b⟩, hmem, hb⟩
      · exact hafter.ne_nil [] hmem rfl
      · cases hb
    · simp [next_eq_cons_iff, mem_within hbelow ss]
    · simp [next_eq_cons_iff, isTopImport_next_iff, hafter.mem_iff]
  found := by
    have hrest : (after.map next).flatMap (importsAt (s :: ss)) = after.flatMap (importsAt ss) := by
      rw [flatMap_map]
      refine flatMap_congr fun a ha => ?_
      obtain ⟨i, a, rfl⟩ := exists_cons_of_ne_nil (hafter.ne_nil a ha)
      exact importsAt_next s ss i a
    rw [ofBlock, ofStmt_eq_flatMap hbelow ss, hafter.found, joined, flatMap_append, hrest,
      flatMap_map]

theorem exists_isScan (body : List Stmt) : ∃ places, IsScan body places := by
  induction hsize : sizeOf body using Nat.strong_induction_on generalizing body with
  | _ size ih =>
    cases body with
    | nil =>
      refine ⟨[], List.Pairwise.nil, fun a => iff_of_false not_mem_nil ?_, rfl⟩
      rintro ⟨above, s, hway, -⟩
      cases a <;> simp [Stmt.way] at hway
    | cons s ss =>
      have hchildren := s.sizeOf_children_le
      simp only [List.cons.sizeOf_spec] at hsize
      obtain ⟨below, hbelow⟩ := ih _ (by omega) s.children rfl
      obtain ⟨after, hafter⟩ := ih _ (by omega) ss rfl
      exact ⟨_, hbelow.cons hafter⟩

end Import

end AssetCatalog
