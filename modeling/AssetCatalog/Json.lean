import AssetCatalog.Value.Basic
import AssetCatalog.Number.Decimal
import AssetCatalog.Number.Reading

/-! JSON texts. Reading accepts `NaN` and the infinities; writing escapes everything outside ASCII. -/

namespace AssetCatalog.Json

variable (cs : List Char)

def isSpace (c : Char) : Bool := c = ' ' || c = '\t' || c = '\n' || c = '\r'

def skipSpace : List Char := cs.dropWhile isSpace

def hexValue? (c : Char) : Option Nat :=
  if c.isDigit then some (c.toNat - 48)
  else if 'a' ≤ c && c ≤ 'f' then some (c.toNat - 87)
  else if 'A' ≤ c && c ≤ 'F' then some (c.toNat - 55)
  else none

def unitChar (n : Nat) : Char := if n < 0xd800 || 0xdfff < n then Char.ofNat n else '�'

def joinUnits : List Nat → List Char
  | n :: m :: ns =>
    if 0xd800 ≤ n && n ≤ 0xdbff && 0xdc00 ≤ m && m ≤ 0xdfff then
      Char.ofNat (0x10000 + (n - 0xd800) * 1024 + (m - 0xdc00)) :: joinUnits ns
    else unitChar n :: joinUnits (m :: ns)
  | ns => ns.map unitChar

def escapes : List (Char × Nat) :=
  [('"', 34), ('\\', 92), ('/', 47), ('b', 8), ('f', 12), ('n', 10), ('r', 13), ('t', 9)]

def readText : List Char → List Nat → Except Fault (String × List Char)
  | '"' :: rest, units => pure (String.ofList (joinUnits units.reverse), rest)
  | '\\' :: 'u' :: a :: b :: c :: d :: rest, units =>
    match [a, b, c, d].mapM hexValue? with
    | some ds => readText rest (ds.foldl (fun n x => n * 16 + x) 0 :: units)
    | none => throw .json
  | '\\' :: c :: rest, units =>
    match escapes.lookup c with
    | some n => readText rest (n :: units)
    | none => throw .json
  | c :: rest, units =>
    if c.toNat < 32 || c = '\\' then throw .json else readText rest (c.toNat :: units)
  | [], _ => throw .json

def digitsValue : Nat := cs.foldl (fun n c => n * 10 + (c.toNat - 48)) 0

def readDigits : List Char × List Char := cs.span Char.isDigit

def readWhole : List Char → List Char × List Char
  | '0' :: cs => (['0'], cs)
  | cs => readDigits cs

def readFraction : List Char → Option (List Char) × List Char
  | '.' :: cs =>
    let (ds, rest) := readDigits cs
    if ds.isEmpty then (none, '.' :: cs) else (some ds, rest)
  | cs => (none, cs)

def readSign : List Char → Bool × List Char
  | '-' :: cs => (true, cs)
  | '+' :: cs => (false, cs)
  | cs => (false, cs)

def readExponent : List Char → Option Int × List Char
  | [] => (none, [])
  | e :: cs =>
    if e = 'e' || e = 'E' then
      let (minus, more) := readSign cs
      let (ds, rest) := readDigits more
      let n : Int := digitsValue ds
      if ds.isEmpty then (none, e :: cs) else (some (if minus then -n else n), rest)
    else (none, e :: cs)

def numberOf (negative : Bool) (whole : List Char) (part : Option (List Char)) (expo : Option Int) :
    Except Fault Value := do
  if whole.isEmpty then throw .json
  else if part.isNone && expo.isNone then
    Number.checkDigits 10 whole.length
    let n : Int := digitsValue whole
    pure (.int (if negative then -n else n))
  else
    let ds := part.getD []
    pure (.float (Binary64.ofDecimal negative (digitsValue (whole ++ ds)) (expo.getD 0 - ds.length)))

def readUnsigned (negative : Bool) (cs : List Char) : Except Fault (Value × List Char) := do
  let (whole, rest) := readWhole cs
  let (part, rest) := readFraction rest
  let (expo, rest) := readExponent rest
  let v ← numberOf negative whole part expo
  pure (v, rest)

def readSigned : List Char → Except Fault (Value × List Char)
  | '-' :: cs => readUnsigned true cs
  | cs => readUnsigned false cs

def isNumberPart (c : Char) : Bool := c.isDigit || ['-', '+', '.', 'e', 'E'].contains c

/-- All that could be part of a number has to be. -/
def readNumber : Except Fault (Value × List Char) := do
  let (v, left) ← readSigned (cs.takeWhile isNumberPart)
  if left.isEmpty then pure (v, cs.dropWhile isNumberPart) else throw .json

def word? (w : String) (v : Value) (cs : List Char) : Except Fault (Value × List Char) :=
  if w.toList.isPrefixOf cs then pure (v, cs.drop w.length) else throw .json

abbrev Reader (α : Type) := List Char → Except Fault (α × List Char)

/-- What stands between brackets: nothing, or what `inner` reads. -/
def readBracket {α : Type} (close : Char) (empty : α) (inner : Reader α) : Reader α := fun cs =>
  match skipSpace cs with
  | [] => throw .json
  | c :: rest => if c = close then pure (empty, rest) else inner (c :: rest)

/-- What follows a part: the next one behind a comma, or the end. -/
def readMore {α : Type} (close : Char) (next : Reader α) (all : α) : Reader α := fun cs =>
  match skipSpace cs with
  | [] => throw .json
  | c :: rest =>
    if c = ',' then next (skipSpace rest) else if c = close then pure (all, rest) else throw .json

mutual

def readValue : Nat → Reader Value
  | 0, _ => throw .json
  | fuel + 1, cs =>
    match cs with
    | [] => throw .json
    | '"' :: rest => (readText rest []).map fun (s, r) => (.text s, r)
    | '[' :: rest => (readBracket ']' [] (readItems fuel []) rest).map fun (xs, r) => (.list xs, r)
    | '\x7b' :: rest => (readBracket '\x7d' [] (readEntries fuel []) rest).map fun (es, r) => (.map es, r)
    | 'n' :: _ => word? "null" .null cs
    | 't' :: _ => word? "true" (.bool true) cs
    | 'f' :: _ => word? "false" (.bool false) cs
    | 'N' :: _ => word? "NaN" (.float .notANumber) cs
    | 'I' :: _ => word? "Infinity" (.float (.infinite false)) cs
    | '-' :: 'I' :: _ => word? "-Infinity" (.float (.infinite true)) cs
    | _ => readNumber cs

def readItems : Nat → List Value → Reader (List Value)
  | 0, _, _ => throw .json
  | fuel + 1, acc, cs => do
    let (v, rest) ← readValue fuel cs
    readMore ']' (readItems fuel (v :: acc)) (v :: acc).reverse rest

def readEntries : Nat → List (Value × Value) → Reader (List (Value × Value))
  | 0, _, _ => throw .json
  | fuel + 1, acc, cs =>
    match cs with
    | '"' :: rest => do
      let (key, rest) ← readText rest []
      match skipSpace rest with
      | ':' :: more => do
        let (v, rest) ← readValue fuel (skipSpace more)
        let acc := Value.put (.text key) v acc
        readMore '\x7d' (readEntries fuel acc) acc rest
      | _ => throw .json
    | _ => throw .json

end

def parse (s : String) : Except Fault Value := do
  let cs := skipSpace s.toList
  let (v, rest) ← readValue (2 * cs.length + 2) cs
  if (skipSpace rest).isEmpty then pure v else throw .json

def escapedChar (c : Char) : String :=
  if c = '"' then "\\\"" else if c = '\\' then "\\\\" else if c = '\n' then "\\n"
  else if c = '\r' then "\\r" else if c = '\t' then "\\t"
  else if c.toNat = 8 then "\\b" else if c.toNat = 12 then "\\f"
  else if 32 ≤ c.toNat && c.toNat < 127 then String.singleton c
  else if c.toNat < 0x10000 then "\\u" ++ Text.hexPadded 4 c.toNat
  else
    let n := c.toNat - 0x10000
    "\\u" ++ Text.hexPadded 4 (0xd800 + n / 1024) ++ "\\u" ++ Text.hexPadded 4 (0xdc00 + n % 1024)

def quoted (s : String) : String := "\"" ++ String.join (s.toList.map escapedChar) ++ "\""

def floatText : Binary64 → String
  | .notANumber => "NaN"
  | .infinite s => if s then "-Infinity" else "Infinity"
  | x => x.text

def scalarText : Value → String
  | .bool b => if b then "true" else "false"
  | .int n => toString n
  | .float x => floatText x
  | .text s => quoted s
  | _ => "null"

def keyText : Value → String
  | .text s => quoted s
  | v => "\"" ++ scalarText v ++ "\""

mutual

def compact : Value → String
  | .list xs => "[" ++ Text.join ", " (compactAll xs) ++ "]"
  | .tuple xs => "[" ++ Text.join ", " (compactAll xs) ++ "]"
  | .map es => "\x7b" ++ Text.join ", " (compactEntries es) ++ "\x7d"
  | v => scalarText v

def compactAll : List Value → List String
  | [] => []
  | x :: xs => compact x :: compactAll xs

def compactEntries : List (Value × Value) → List String
  | [] => []
  | (k, v) :: es => (keyText k ++ ": " ++ compact v) :: compactEntries es

end

def block (opening closing : String) (depth : Nat) (parts : List String) : String :=
  let inner := "\n" ++ Text.times (depth + 1) "  "
  opening ++ inner ++ Text.join ("," ++ inner) parts ++ "\n" ++ Text.times depth "  " ++ closing

mutual

def indented (depth : Nat) : Value → String
  | .list [] => "[]"
  | .tuple [] => "[]"
  | .map [] => "\x7b\x7d"
  | .list xs => block "[" "]" depth (indentedAll (depth + 1) xs)
  | .tuple xs => block "[" "]" depth (indentedAll (depth + 1) xs)
  | .map es => block "\x7b" "\x7d" depth (indentedEntries (depth + 1) es)
  | v => scalarText v

def indentedAll (depth : Nat) : List Value → List String
  | [] => []
  | x :: xs => indented depth x :: indentedAll depth xs

def indentedEntries (depth : Nat) : List (Value × Value) → List String
  | [] => []
  | (k, v) :: es => (keyText k ++ ": " ++ indented depth v) :: indentedEntries depth es

end

end AssetCatalog.Json
