import AssetCatalog.Text.Basic
import AssetCatalog.Fault

/-! Version specifiers: comparisons with versions, without regard to case. -/

namespace AssetCatalog.Version

variable (cs : List Char)

inductive Comparison where
  | compatible
  | equal
  | different
  | atMost
  | atLeast
  | below
  | above
  | identical
deriving DecidableEq, Repr

def Comparison.spellings : List (List Char × Comparison) :=
  [ (['~', '='], .compatible), (['=', '='], .equal), (['!', '='], .different), (['<', '='], .atMost),
    (['>', '='], .atLeast), (['<'], .below), (['>'], .above), (['=', '=', '='], .identical) ]

def foldLetter (c : Char) : Char :=
  if c.isUpper then c.toLower
  else if c = '\u0130' || c = '\u0131' then 'i'
  else if c = '\u017f' then 's'
  else if c = '\u212a' then 'k'
  else c

def dropWord? : List Char → List Char → Option (List Char)
  | [], cs => some cs
  | w :: ws, c :: cs => if foldLetter c = w then dropWord? ws cs else none
  | _ :: _, [] => none

def isSeparator (c : Char) : Bool := c = '-' || c = '_' || c = '.'

def dropSeparator : List Char → List Char
  | c :: cs => if isSeparator c then cs else c :: cs
  | [] => []

def dropDigits : List Char := cs.dropWhile Char.isDigit

def digits? : List Char → Option (List Char)
  | c :: cs => if c.isDigit then some (dropDigits cs) else none
  | [] => none

def dropLabelled (labels : List String) (cs : List Char) : List Char :=
  match labels.findSome? fun l => dropWord? l.toList (dropSeparator cs) with
  | some rest => dropDigits (dropSeparator rest)
  | none => cs

def dropEarly : List Char :=
  dropLabelled ["alpha", "beta", "preview", "pre", "a", "b", "c", "rc"] cs

def dropLate : List Char :=
  match cs with
  | '-' :: rest => (digits? rest).getD (dropLabelled ["post", "rev", "r"] cs)
  | _ => dropLabelled ["post", "rev", "r"] cs

def dropDevelopment : List Char := dropLabelled ["dev"] cs

def releaseFrom : Nat → Nat → List Char → Option (Nat × List Char)
  | 0, _, _ => none
  | fuel + 1, points, cs => do
    let rest ← digits? cs
    match rest with
    | '.' :: c :: more =>
      if c.isDigit then releaseFrom fuel (points + 1) (c :: more) else pure (points, rest)
    | _ => pure (points, rest)

def release? : Option (Nat × List Char) :=
  let cs := cs.dropWhile Text.isBlank
  let cs := (dropWord? ['v'] cs).getD cs
  let cs := match digits? cs with
    | some ('!' :: rest) => rest
    | _ => cs
  releaseFrom (cs.length + 1) 0 cs

def isLocalChar (c : Char) : Bool :=
  c.isDigit || (let d := foldLetter c; 'a' ≤ d && d ≤ 'z')

def isLocalFrom (started : Bool) : List Char → Bool
  | [] => started
  | c :: cs =>
    if isLocalChar c then isLocalFrom true cs
    else started && isSeparator c && isLocalFrom false cs

def isLocal : List Char → Bool
  | [] => true
  | '+' :: cs => isLocalFrom false cs
  | _ => false

def dropMarks : List Char := dropDevelopment (dropLate (dropEarly cs))

def Comparison.takes (op : Comparison) (cs : List Char) : Bool :=
  match op with
  | .identical => (cs.dropWhile Text.isBlank).all fun c => !Text.isBlank c && c ≠ ';' && c ≠ ')'
  | .equal | .different =>
    match release? cs with
    | some (_, ['.', '*']) => true
    | some (_, rest) => isLocal (dropMarks rest)
    | none => false
  | .compatible =>
    match release? cs with
    | some (points, rest) => 1 ≤ points && (dropMarks rest).isEmpty
    | none => false
  | _ =>
    match release? cs with
    | some (_, rest) => (dropMarks rest).isEmpty
    | none => false

def isSpecifier (s : String) : Bool :=
  Comparison.spellings.any fun (spelling, op) =>
    spelling.isPrefixOf s.toList && op.takes (s.toList.drop spelling.length)

def badSpecifier? (s : String) : Option String :=
  let parts := ((Text.split "," s).map Text.trim).filter (· ≠ "")
  parts.find? fun p => !isSpecifier p

def specifierComplaint? (s : String) : Option String :=
  (badSpecifier? s).map fun p => s!"Invalid specifier: '{p}'"

end AssetCatalog.Version
