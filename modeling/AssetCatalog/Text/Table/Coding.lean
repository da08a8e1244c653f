/-! How tables of characters are written: in words of numbers to the base 62. A word starts with a
place, counted from the last character of the word before: `g` is the character `g` behind that one,
`g+n` goes on with the next `n` characters, and `g/n` with every second one. In front of a mark, `g`
is left out if it is one. What is said of the place follows a colon. -/

namespace AssetCatalog.Text.Table

variable (text : String)

def cut (mark : Char) (cs : List Char) : List (List Char) :=
  cs.foldr (fun c parts =>
    if c = mark then [] :: parts
    else match parts with
      | p :: ps => (c :: p) :: ps
      | [] => [[c]]) [[]]

def digit (c : Char) : Nat :=
  if c.isDigit then c.toNat - 48 else if c.isLower then c.toNat - 87 else c.toNat - 29

def number (cs : List Char) : Nat := cs.foldl (fun n c => n * 62 + digit c) 0

def distance : List Char → Int
  | '-' :: cs => -(number cs : Int)
  | cs => number cs

def words : List (List Char) :=
  (cut ' ' (text.toList.filter (· ≠ '\n'))).filter fun w => !w.isEmpty

def gapOf (cs : List Char) : Nat := if cs.isEmpty then 1 else number cs

structure Place where
  first : Nat
  last : Nat
  step : Nat
  said : List Char

def places (start : Nat) : List (List Char) → List Place
  | [] => []
  | w :: ws =>
    let (place, said) := match cut ':' w with
      | [place, said] => (place, said)
      | _ => (w, [])
    let step := if place.contains '/' then 2 else 1
    let (gap, more) := match cut (if step = 2 then '/' else '+') place with
      | [gap, more] => (gapOf gap, number more)
      | _ => (gapOf place, 0)
    let first := start + gap
    { first, last := first + step * more, step, said } :: places (first + step * more) ws

def ranges : List (Nat × Nat) :=
  (places 0 (words text)).map fun p => (p.first, p.last)

structure CaseRun where
  first : Nat
  last : Nat
  step : Nat
  shift : Int

def caseRuns : List CaseRun :=
  (places 0 (words text)).map fun p => ⟨p.first, p.last, p.step, distance p.said⟩

/-- Characters with the characters `x,y,…` that they stand for; in a range the first of these moves
along. -/
def expansions : List (Nat × List Nat) :=
  (places 0 (words text)).flatMap fun p =>
    (List.range (p.last + 1 - p.first)).map fun i =>
      match (cut ',' p.said).map number with
      | x :: rest => (p.first + i, (x + i) :: rest)
      | [] => (p.first + i, [])

end AssetCatalog.Text.Table
