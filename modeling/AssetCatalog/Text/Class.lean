import AssetCatalog.Text.Table.Letters
import AssetCatalog.Text.Table.Printable
import AssetCatalog.Text.Table.Identifier
import AssetCatalog.Text.Table.Cased
import AssetCatalog.Text.Table.Digits

/-! Classes of characters: ASCII by a rule, and above it by a table of ranges. -/

namespace AssetCatalog.Text

variable (c : Char)

def covers : List (Nat × Nat) → Nat → Bool
  | [], _ => false
  | (lo, hi) :: rest, n => if n < lo then false else n ≤ hi || covers rest n

def isLetter : Bool :=
  if c.toNat < 128 then c.isAlpha else covers Table.letters c.toNat

def isAlphanumeric : Bool :=
  if c.toNat < 128 then c.isAlphanum
  else covers Table.letters c.toNat || covers Table.numbers c.toNat

def isWordPart : Bool := c = '_' || isAlphanumeric c

def decimalIn : List (Nat × Nat) → Nat → Option Nat
  | [], _ => none
  | (lo, hi) :: rest, n =>
    if n < lo then none else if n ≤ hi then some ((n - lo) % 10) else decimalIn rest n

def decimalValue? : Option Nat :=
  if c.toNat < 128 then (if c.isDigit then some (c.toNat - '0'.toNat) else none)
  else decimalIn Table.decimals c.toNat

def isDecimal : Bool := (decimalValue? c).isSome

def isBlank : Bool :=
  let n := c.toNat
  n = 32 || (9 ≤ n && n ≤ 13) || (28 ≤ n && n ≤ 31) || n = 0x85 || n = 0xa0 || n = 0x1680 ||
    (0x2000 ≤ n && n ≤ 0x200a) || n = 0x2028 || n = 0x2029 || n = 0x202f || n = 0x205f || n = 0x3000

def isLineEnd : Bool :=
  let n := c.toNat
  (10 ≤ n && n ≤ 13) || (28 ≤ n && n ≤ 30) || n = 0x85 || n = 0x2028 || n = 0x2029

def isPrintable : Bool :=
  if c.toNat < 128 then 32 ≤ c.toNat && c.toNat < 127 else !covers Table.unprintable c.toNat

def isIdentifierStart : Bool :=
  if c.toNat < 128 then c.isAlpha || c = '_'
  else (covers Table.letters c.toNat && !covers Table.letterNotStart c.toNat) ||
    covers Table.startNotLetter c.toNat

def isIdentifierPart : Bool :=
  if c.toNat < 128 then c.isAlphanum || c = '_'
  else isIdentifierStart c || covers Table.continueOnly c.toNat

def isIdentifier : List Char → Bool
  | [] => false
  | c :: cs => isIdentifierStart c && cs.all isIdentifierPart

def isCased : Bool :=
  if c.toNat < 128 then c.isAlpha else covers Table.cased c.toNat

def isCaseIgnorable : Bool :=
  if c.toNat < 128 then c = '\'' || c = '.' || c = ':' || c = '^' || c = '`'
  else covers Table.caseIgnorable c.toNat

end AssetCatalog.Text
