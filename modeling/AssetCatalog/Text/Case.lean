import AssetCatalog.Text.Class
import AssetCatalog.Text.Table.Casing

/-! Lower, upper and title case. A capital sigma has a final form at the end of a word. -/

namespace AssetCatalog.Text

variable (s : String)

def shiftIn : List Table.CaseRun → Nat → Option Char
  | [], _ => none
  | r :: rest, n =>
    if n < r.first then none
    else if n ≤ r.last && (n - r.first) % r.step = 0 then some (Char.ofNat (n + r.shift).toNat)
    else shiftIn rest n

def expansionOf (table : List (Nat × List Nat)) (n : Nat) : Option (List Char) :=
  (table.lookup n).map (·.map Char.ofNat)

def lowerOf (c : Char) : List Char :=
  if c.toNat < 128 then [c.toLower]
  else (expansionOf Table.lowerExpansions c.toNat).getD [(shiftIn Table.lowerRuns c.toNat).getD c]

def upperOf (c : Char) : List Char :=
  if c.toNat < 128 then [c.toUpper]
  else (expansionOf Table.upperExpansions c.toNat).getD [(shiftIn Table.upperRuns c.toNat).getD c]

def titleOf (c : Char) : List Char :=
  if c.toNat < 128 then [c.toUpper] else (expansionOf Table.titleOwn c.toNat).getD (upperOf c)

def wordEnds (before after : List Char) : Bool :=
  (match before.dropWhile isCaseIgnorable with
    | [] => false
    | c :: _ => isCased c) &&
  (match after.dropWhile isCaseIgnorable with
    | [] => true
    | c :: _ => !isCased c)

def lowerWithin (before : List Char) (c : Char) (after : List Char) : List Char :=
  if c = 'Σ' then [if wordEnds before after then 'ς' else 'σ'] else lowerOf c

def lowerFrom : List Char → List Char → List Char
  | _, [] => []
  | before, c :: cs => lowerWithin before c cs ++ lowerFrom (c :: before) cs

def titleFrom : List Char → Bool → List Char → List Char
  | _, _, [] => []
  | before, inWord, c :: cs =>
    (if inWord then lowerWithin before c cs else titleOf c) ++ titleFrom (c :: before) (isCased c) cs

def lower : String := String.ofList (lowerFrom [] s.toList)

def upper : String := String.ofList (s.toList.flatMap upperOf)

def titleCase : String := String.ofList (titleFrom [] false s.toList)

def capitalize : String :=
  match s.toList with
  | [] => ""
  | c :: cs => String.ofList (titleOf c ++ lowerFrom [c] cs)

end AssetCatalog.Text
