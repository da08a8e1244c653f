import AssetCatalog.Text.Basic

/-! Shell patterns: `*` stands for any text, `?` for any character, and brackets for one of a set. -/

namespace AssetCatalog.Text

structure Interval where
  low : Char
  high : Char
deriving DecidableEq, Repr, Inhabited

inductive GlobPart where
  | anyText
  | anyChar
  | literal (c : Char)
  | oneOf (negated : Bool) (set : List Interval)
deriving DecidableEq, Repr, Inhabited

namespace GlobPart

def admits : GlobPart → Char → Bool
  | .anyText, _ => true
  | .anyChar, _ => true
  | .literal c, d => c = d
  | .oneOf negated set, d => negated ≠ set.any fun i => i.low ≤ d && d ≤ i.high

end GlobPart

def intervals : List Char → List Interval
  | a :: '-' :: b :: cs => ⟨a, b⟩ :: intervals cs
  | a :: cs => ⟨a, a⟩ :: intervals cs
  | [] => []

/-- The part for the text inside brackets. Empty intervals are dropped; a mark of exclamation that
stands first, before or after that, negates the set. -/
def bracketPart (inside : List Char) : GlobPart :=
  let kept (cs : List Char) : List Interval := (intervals cs).filter fun i => i.low ≤ i.high
  match inside with
  | '!' :: cs => .oneOf true (kept cs)
  | cs =>
    match kept cs with
    | ⟨'!', '!'⟩ :: rest => .oneOf true rest
    | ⟨'!', high⟩ :: rest => .oneOf true (⟨'-', '-'⟩ :: ⟨high, high⟩ :: rest)
    | set => .oneOf false set

def cutBracket? (cs : List Char) : Option (List Char × List Char) :=
  let (mark, rest) := match cs with
    | '!' :: rest => (['!'], rest)
    | rest => ([], rest)
  let (first, rest) := match rest with
    | ']' :: rest => ([']'], rest)
    | rest => ([], rest)
  (cutList? [']'] rest).map fun (inside, after) => (mark ++ first ++ inside, after)

def globParts : Nat → List Char → List GlobPart
  | 0, _ => []
  | _, [] => []
  | fuel + 1, c :: cs =>
    if c = '*' then .anyText :: globParts fuel cs
    else if c = '?' then .anyChar :: globParts fuel cs
    else if c = '[' then
      match cutBracket? cs with
      | some (inside, after) => bracketPart inside :: globParts fuel after
      | none => .literal '[' :: globParts fuel cs
    else .literal c :: globParts fuel cs

def someRest (test : List Char → Bool) : List Char → Bool
  | [] => test []
  | c :: cs => test (c :: cs) || someRest test cs

def matchParts : List GlobPart → List Char → Bool
  | [], cs => cs.isEmpty
  | .anyText :: ps, cs => someRest (matchParts ps) cs
  | p :: ps, c :: cs => p.admits c && matchParts ps cs
  | _ :: _, [] => false

def globMatches (pattern s : String) : Bool :=
  matchParts (globParts pattern.length pattern.toList) s.toList

end AssetCatalog.Text
