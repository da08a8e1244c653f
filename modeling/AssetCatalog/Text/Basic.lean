import AssetCatalog.Text.Class

/-! Cutting, joining and searching texts, by their lists of characters. -/

namespace AssetCatalog.Text

variable (s : String)

def trimList (p : Char → Bool) (cs : List Char) : List Char :=
  ((cs.dropWhile p).reverse.dropWhile p).reverse

def trimBy (p : Char → Bool) (s : String) : String := String.ofList (trimList p s.toList)

def trim : String := trimBy isBlank s

def trimStart : String := String.ofList (s.toList.dropWhile isBlank)

def trimEnd : String := String.ofList (s.toList.reverse.dropWhile isBlank).reverse

def wordsFrom (blank : Char → Bool) : List Char → List Char → List (List Char)
  | [], [] => []
  | [], acc => [acc.reverse]
  | c :: cs, acc =>
    if blank c then
      (if acc.isEmpty then wordsFrom blank cs [] else acc.reverse :: wordsFrom blank cs [])
    else wordsFrom blank cs (c :: acc)

def wordList (cs : List Char) : List (List Char) := wordsFrom isBlank cs []

def words : List String := (wordList s.toList).map String.ofList

def splitFrom (sep : List Char) : List Char → Nat → List Char → List (List Char)
  | [], _, acc => [acc.reverse]
  | _ :: cs, skip + 1, acc => splitFrom sep cs skip acc
  | c :: cs, 0, acc =>
    if sep.isPrefixOf (c :: cs) then acc.reverse :: splitFrom sep cs (sep.length - 1) []
    else splitFrom sep cs 0 (c :: acc)

def splitList (sep cs : List Char) : List (List Char) := splitFrom sep cs 0 []

def split (sep s : String) : List String := (splitList sep.toList s.toList).map String.ofList

def join (sep : String) (pieces : List String) : String := String.intercalate sep pieces

def replace (old new s : String) : String := join new (split old s)

def occursIn (sub : List Char) : List Char → Bool
  | [] => sub.isEmpty
  | c :: cs => sub.isPrefixOf (c :: cs) || occursIn sub cs

def contains (s sub : String) : Bool := occursIn sub.toList s.toList

def startsWith (s start : String) : Bool := start.toList.isPrefixOf s.toList

def endsWith (s tail : String) : Bool := tail.toList.isSuffixOf s.toList

def cutList? (sub : List Char) : List Char → Option (List Char × List Char)
  | [] => if sub.isEmpty then some ([], []) else none
  | c :: cs =>
    if sub.isPrefixOf (c :: cs) then some ([], (c :: cs).drop sub.length)
    else (cutList? sub cs).map fun (before, after) => (c :: before, after)

def cut? (sub s : String) : Option (String × String) :=
  (cutList? sub.toList s.toList).map fun (a, b) => (String.ofList a, String.ofList b)

def cutLast? (c : Char) (s : String) : Option (String × String) :=
  let back := s.toList.reverse
  match back.dropWhile (· ≠ c) with
  | [] => none
  | _ :: before => some (String.ofList before.reverse,
      String.ofList (back.takeWhile (· ≠ c)).reverse)

def take (n : Nat) (s : String) : String := String.ofList (s.toList.take n)

def drop (n : Nat) (s : String) : String := String.ofList (s.toList.drop n)

def times (n : Nat) (s : String) : String := String.join (List.replicate n s)

def padRight (width : Nat) (s : String) : String := s ++ times (width - s.length) " "

def padLeft (width : Nat) (s : String) : String := times (width - s.length) " " ++ s

def linesFrom : List Char → List Char → List (List Char)
  | [], [] => []
  | [], acc => [acc.reverse]
  | '\r' :: '\n' :: cs, acc => ('\n' :: '\r' :: acc).reverse :: linesFrom cs []
  | c :: cs, acc =>
    if isLineEnd c then (c :: acc).reverse :: linesFrom cs [] else linesFrom cs (c :: acc)

def lineList (cs : List Char) : List (List Char) := linesFrom cs []

def linesWithEnds : List String := (lineList s.toList).map String.ofList

def lines : List String :=
  (lineList s.toList).map fun l =>
    String.ofList (match l.reverse with
      | '\n' :: '\r' :: r => r.reverse
      | c :: r => if isLineEnd c then r.reverse else l
      | [] => [])

def unifyNewlines : List Char → List Char
  | [] => []
  | '\r' :: '\n' :: cs => '\n' :: unifyNewlines cs
  | '\r' :: cs => '\n' :: unifyNewlines cs
  | c :: cs => c :: unifyNewlines cs

def le (a b : String) : Bool := !(b < a)

def sort (xs : List String) : List String := xs.mergeSort le

def distinct {α : Type} [BEq α] (xs : List α) : List α :=
  xs.foldl (fun seen x => if seen.contains x then seen else seen ++ [x]) []

end AssetCatalog.Text
