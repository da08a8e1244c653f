import AssetCatalog.Text.Basic
import AssetCatalog.Text.Case

/-! Regular expressions with captures, references and assertions. -/

namespace AssetCatalog

namespace Regex

structure Options where
  ignoreCase : Bool := false
  multiline : Bool := false
  dotAll : Bool := false
  verbose : Bool := false
  ascii : Bool := false
deriving DecidableEq, Repr, Inhabited

inductive Category where
  | digit
  | space
  | word
deriving DecidableEq, Repr, Inhabited

inductive SetItem where
  | char (c : Char)
  | range (low high : Char)
  | category (k : Category) (negated : Bool)
deriving DecidableEq, Repr, Inhabited

inductive Place where
  | lineStart
  | lineEnd
  | textStart
  | textEnd
  | boundary
  | noBoundary
deriving DecidableEq, Repr, Inhabited

inductive Mode where
  | greedy
  | lazy
  | possessive
deriving DecidableEq, Repr, Inhabited

end Regex

inductive Regex where
  | empty
  | any (options : Regex.Options)
  | oneOf (options : Regex.Options) (negated : Bool) (items : List Regex.SetItem)
  | place (options : Regex.Options) (p : Regex.Place)
  | seq (first second : Regex)
  | alt (first second : Regex)
  | repeated (low : Nat) (high : Option Nat) (mode : Regex.Mode) (body : Regex)
  | group (index : Nat) (body : Regex)
  | reference (options : Regex.Options) (index : Nat)
  | atomic (body : Regex)
  | ahead (negated : Bool) (body : Regex)
  | behind (negated : Bool) (length : Nat) (body : Regex)
  | ifGroup (index : Nat) (yes no : Regex)
deriving Repr, Inhabited

namespace Regex

variable (ascii : Bool)

/-- Least and greatest length of what an expression matches; `none` where there is no bound.
`groups` gives the lengths of the groups. -/
def width (groups : Nat → Nat × Option Nat) : Regex → Nat × Option Nat
  | .empty => (0, some 0)
  | .any _ => (1, some 1)
  | .oneOf _ _ _ => (1, some 1)
  | .place _ _ => (0, some 0)
  | .seq a b =>
    let (la, ha) := width groups a
    let (lb, hb) := width groups b
    (la + lb, ha.bind fun x => hb.map (x + ·))
  | .alt a b =>
    let (la, ha) := width groups a
    let (lb, hb) := width groups b
    (min la lb, ha.bind fun x => hb.map (max x ·))
  | .repeated low high _ body =>
    let (l, h) := width groups body
    (l * low, match h, high with
      | some 0, _ => some 0
      | some x, some n => some (x * n)
      | _, _ => none)
  | .group _ body => width groups body
  | .reference _ n => groups n
  | .atomic body => width groups body
  | .ahead _ _ => (0, some 0)
  | .behind _ _ _ => (0, some 0)
  | .ifGroup _ yes no =>
    let (ly, hy) := width groups yes
    let (ln, hn) := width groups no
    (min ly ln, hy.bind fun x => hn.map (max x ·))

def simple (f : Char → List Char) (c : Char) : Char :=
  match f c with
  | [d] => d
  | _ => c

def sameIgnoringCase (c d : Char) : Bool :=
  if ascii then c.toLower = d.toLower
  else simple Text.lowerOf c = simple Text.lowerOf d || simple Text.upperOf c = simple Text.upperOf d

def Category.holds : Category → Char → Bool
  | .digit, c => if ascii then c.isDigit else Text.isDecimal c
  | .space, c => Text.isBlank c && (!ascii || (c = ' ' || ('\t' ≤ c && c ≤ '\r')))
  | .word, c => if ascii then c.isAlphanum || c = '_' else Text.isWordPart c

def SetItem.holdsExactly (c : Char) : SetItem → Bool
  | .char d => c = d
  | .range low high => low ≤ c && c ≤ high
  | .category k negated => k.holds ascii c != negated

def caseForms (c : Char) : List Char :=
  if ascii then [c, c.toLower, c.toUpper]
  else [c, simple Text.lowerOf c, simple Text.upperOf c]

def SetItem.holds (options : Options) (c : Char) (item : SetItem) : Bool :=
  match item with
  | .category _ _ => item.holdsExactly options.ascii c
  | .char d => c = d || (options.ignoreCase && sameIgnoringCase options.ascii c d)
  | .range _ _ =>
    item.holdsExactly options.ascii c ||
      (options.ignoreCase && (caseForms options.ascii c).any fun d => item.holdsExactly options.ascii d)

end Regex

end AssetCatalog
