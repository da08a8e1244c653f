import AssetCatalog.Text.Basic

/-! Semantic versions. Digits of any script count in numbers, and one line end may follow. -/

namespace AssetCatalog.Version

def isNumber : List Char → Bool
  | ['0'] => true
  | c :: cs => '1' ≤ c && c ≤ '9' && cs.all Text.isDecimal
  | [] => false

def isMark (c : Char) : Bool := c.isAlpha || c = '-'

def isReleasePart (cs : List Char) : Bool :=
  isNumber cs ||
    match cs.dropWhile Text.isDecimal with
    | c :: rest => isMark c && rest.all fun d => isMark d || d.isDigit
    | [] => false

def isBuildPart (cs : List Char) : Bool := !cs.isEmpty && cs.all fun c => isMark c || c.isDigit

def cutAt (c : Char) (cs : List Char) : List Char × Option (List Char) :=
  match Text.cutList? [c] cs with
  | some (a, b) => (a, some b)
  | none => (cs, none)

def withoutLineEnd (cs : List Char) : List Char :=
  if cs.getLast? = some '\n' then cs.dropLast else cs

def isSemantic (s : String) : Bool :=
  let (main, build) := cutAt '+' (withoutLineEnd s.toList)
  let (core, release) := cutAt '-' main
  let numbers := Text.splitList ['.'] core
  numbers.length = 3 && numbers.all isNumber &&
    (release.map fun r => (Text.splitList ['.'] r).all isReleasePart).getD true &&
    (build.map fun b => (Text.splitList ['.'] b).all isBuildPart).getD true

end AssetCatalog.Version
