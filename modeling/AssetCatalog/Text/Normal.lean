import Std.Data.HashMap
import AssetCatalog.Text.Table.Normal

/-! The compatibility normal form of identifiers: characters are taken apart, marks are put in order,
and pairs are put together again. -/

namespace AssetCatalog.Text

open Table (cut number words places)

def decompositionsIn (item : List Char) : List (List Nat) :=
  match cut '*' item, cut '~' item with
  | [v, n], _ => List.replicate (number n) (parts v)
  | _, [v, n] => (List.range (number n)).map fun i => [number v + i]
  | _, _ =>
    if item.all (·.toNat < 128) then alternatives (cut '|' item) else item.map fun c => [c.toNat]
where
  parts (v : List Char) : List Nat := (cut '+' v).map number
  alternatives : List (List Char) → List (List Nat)
    | [] => []
    | v :: others => parts v :: others.map fun x => (parts v).dropLast ++ [number x]

def decompositionTable : Std.HashMap Nat (List Nat) :=
  (places 0 (words Table.decompositions)).foldl (fun m p =>
    ((cut ',' p.said).flatMap decompositionsIn).zipIdx.foldl (fun m (v, i) =>
      m.insert (p.first + i) v) m) {}

/-- Most marks stand above their letters, and nothing is said of these. -/
def classOf (said : List Char) : Nat := if said.isEmpty then 230 else number said

def classTable : Std.HashMap Nat Nat :=
  (places 0 (words Table.combiningClasses)).foldl (fun m p =>
    (List.range (p.last + 1 - p.first)).foldl (fun m i => m.insert (p.first + i) (classOf p.said)) m) {}

def pairsFrom (second first : Nat) (shift : Int) : List (List Char) → List ((Nat × Nat) × Nat)
  | [] => []
  | item :: rest =>
    let (gap, more) := match cut '+' item, cut '-' item with
      | [gap, n], _ => (gap, (number n : Int))
      | _, [gap, n] => (gap, -(number n : Int))
      | _, _ => (item, 0)
    let first := first + number gap
    ((first, second), (first + shift + more).toNat) :: pairsFrom second first (shift + more) rest

def pairsIn (text : String) : List ((Nat × Nat) × Nat) :=
  (places 0 (words text)).flatMap fun p => pairsFrom p.first 0 0 (cut ',' p.said)

def compositionTable : Std.HashMap (Nat × Nat) Nat :=
  (pairsIn Table.compositions ++ pairsIn Table.oneWayCompositions).foldl (fun m (pair, c) =>
    m.insert pair c) {}

def pairTable : Std.HashMap Nat (Nat × Nat) :=
  (pairsIn Table.compositions).foldl (fun m (pair, c) => m.insert c pair) {}

def hangulParts (n : Nat) : Option (List Nat) :=
  if 0xAC00 ≤ n && n ≤ 0xD7A3 then
    let i := n - 0xAC00
    let lead := 0x1100 + i / 588
    let vowel := 0x1161 + i % 588 / 28
    let trail := i % 28
    some (if trail = 0 then [lead, vowel] else [lead, vowel, 0x11A7 + trail])
  else none

def hangulPair (a b : Nat) : Option Nat :=
  if 0x1100 ≤ a && a < 0x1113 && 0x1161 ≤ b && b < 0x1176 then
    some (0xAC00 + ((a - 0x1100) * 21 + (b - 0x1161)) * 28)
  else if 0xAC00 ≤ a && a ≤ 0xD7A3 && (a - 0xAC00) % 28 = 0 && 0x11A8 ≤ b && b < 0x11C3 then
    some (a + (b - 0x11A7))
  else none

/-- What a character is taken apart into; no pair has another inside its first character more than
twice. -/
def partsOf : Nat → Nat → List Nat
  | 0, n => [n]
  | depth + 1, n =>
    match decompositionTable[n]?, pairTable[n]? with
    | some parts, _ => parts
    | none, some (first, second) => partsOf depth first ++ partsOf depth second
    | none, none => [n]

def apart (n : Nat) : List Nat := (hangulParts n).getD (partsOf 3 n)

def combiningClass (n : Nat) : Nat := classTable[n]?.getD 0

def orderMarks (cls : Nat → Nat) (marks : List Nat) : List Nat → List Nat
  | [] => sorted marks
  | n :: ns =>
    if cls n = 0 then sorted marks ++ n :: orderMarks cls [] ns
    else orderMarks cls (marks ++ [n]) ns
where
  sorted (marks : List Nat) : List Nat := marks.mergeSort fun a b => cls a ≤ cls b

def pairOf (a b : Nat) : Option Nat := (hangulPair a b).orElse fun _ => compositionTable[(a, b)]?

/-- Puts together: `starter` is the last character of class zero, `passed` what follows it and stays,
and `last` the class of the mark before. -/
def together (starter : Nat) (passed : List Nat) (last : Nat) : List Nat → List Nat
  | [] => starter :: passed
  | n :: ns =>
    let c := combiningClass n
    let free := passed.isEmpty || (last ≠ 0 && last < c)
    match (if free then pairOf starter n else none) with
    | some m => together m passed last ns
    | none =>
      if c = 0 then starter :: passed ++ together n [] 0 ns
      else together starter (passed ++ [n]) c ns

def compose : List Nat → List Nat
  | [] => []
  | n :: ns => if combiningClass n = 0 then together n [] 0 ns else n :: compose ns

def normalForm (cs : List Char) : List Char :=
  if cs.all (·.toNat < 128) then cs
  else
    let parts := orderMarks combiningClass [] (cs.flatMap fun c => apart c.toNat)
    (compose parts).map Char.ofNat

end AssetCatalog.Text
