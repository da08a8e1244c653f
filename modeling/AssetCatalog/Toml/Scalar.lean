import AssetCatalog.Toml.Text
import AssetCatalog.Value.Basic

/-! Numbers, dates and times of TOML. -/

namespace AssetCatalog.Toml

def nat (cs : List Char) : Nat := Number.ofDigits 10 (cs.filterMap (Number.digitIn 10))

def isAsciiDigit (c : Char) : Bool := c.isDigit

def nextIn (cs : List Char) : Reader Char := next cs.contains

def digits : Nat → Reader (List Char) := exactly isAsciiDigit

def twoDigits (low high : Nat) : Reader Nat := do
  let n := nat (← digits 2)
  if low ≤ n && n ≤ high then pure n else throw .toml

def readFraction : Reader Nat :=
  (do
    let _ ← nextIn ['.']
    let d ← next isAsciiDigit
    let six := (d :: (← charsOf isAsciiDigit)).take 6
    pure (nat (six ++ List.replicate (6 - six.length) '0')))
  <|> pure 0

def readClock : Reader Clock := do
  let hour ← twoDigits 0 23
  let _ ← nextIn [':']
  let minute ← twoDigits 0 59
  let _ ← nextIn [':']
  let second ← twoDigits 0 59
  let micro ← readFraction
  pure ⟨hour, minute, second, micro⟩

def readOffset : Reader (Option Int) :=
  (do
    let _ ← nextIn ['Z', 'z']
    pure (some 0))
  <|> (do
    let sign ← nextIn ['+', '-']
    let hour ← twoDigits 0 23
    let _ ← nextIn [':']
    let minute ← twoDigits 0 59
    let size : Int := (hour * 60 + minute) * 60 * Moment.secondLength
    pure (some (if sign = '-' then -size else size)))
  <|> pure none

def readDate : Reader (Nat × Nat × Nat) := do
  let year ← digits 4
  let _ ← nextIn ['-']
  let month ← twoDigits 1 12
  let _ ← nextIn ['-']
  let day ← twoDigits 1 31
  pure (nat year, month, day)

def readMoment : Reader (Option Value) := do
  let (year, month, day) ← readDate
  let date := Date.ofParts? year month day
  (do
    let _ ← nextIn ['T', 't', ' ']
    let t ← readClock
    let offset ← readOffset
    pure (date.map fun d => .moment ⟨d, t.hour, t.minute, t.second, t.micro, offset⟩))
  <|> pure (date.map .date)

def digitsFrom (p : Char → Bool) : List Char → List Char × List Char
  | '_' :: c :: cs =>
    if p c then
      let (ds, rest) := digitsFrom p cs
      (c :: ds, rest)
    else ([], '_' :: c :: cs)
  | c :: cs =>
    if p c then
      let (ds, rest) := digitsFrom p cs
      (c :: ds, rest)
    else ([], c :: cs)
  | [] => ([], [])

def digitRun (p : Char → Bool) : Reader (List Char) := do
  let d ← next p
  let ds ← fun cs => pure (digitsFrom p cs)
  pure (d :: ds)

def isIn (base : Nat) (c : Char) : Bool := isHex c && (Number.digitIn base c).isSome

def based (mark : Char) (base : Nat) : Reader Value := do
  let _ ← nextIn ['0']
  let _ ← nextIn [mark]
  let ds ← digitRun (isIn base)
  pure (.int (Number.ofDigits base (ds.filterMap (Number.digitIn base))))

def readSign : Reader (List Char) :=
  (do
    let sign ← nextIn ['+', '-']
    pure [sign])
  <|> pure []

def fractionOf : Reader (List Char) :=
  (do
    let point ← nextIn ['.']
    let ds ← digitRun isAsciiDigit
    pure (point :: ds))
  <|> pure []

def exponentOf : Reader (List Char) :=
  (do
    let _ ← nextIn ['e', 'E']
    let sign ← readSign
    let ds ← digitRun isAsciiDigit
    pure ('e' :: sign ++ ds))
  <|> pure []

def decimal : Reader (Except Fault Value) := do
  let sign ← readSign
  let whole ← (do
    let zero ← nextIn ['0']
    pure [zero]) <|> digitRun isAsciiDigit
  let fraction ← fractionOf
  let exponent ← exponentOf
  let negative := sign = ['-']
  if fraction.isEmpty && exponent.isEmpty then
    let n : Int := nat whole
    pure ((Number.checkDigits 10 whole.length).map fun _ => .int (if negative then -n else n))
  else
    match Number.float? ((if negative then ['-'] else []) ++ whole ++ fraction ++ exponent) with
    | some x => pure (.ok (.float x))
    | none => throw .toml

def words : List (String × Value) :=
  let infinity : Binary64 := .infinite false
  [ ("true", .bool true), ("false", .bool false), ("inf", .float infinity), ("nan", .float .notANumber),
    ("-inf", .float (.infinite true)), ("+inf", .float infinity), ("-nan", .float .notANumber),
    ("+nan", .float .notANumber) ]

def word (w : String) (v : Value) : Reader Value := fun cs =>
  if w.toList.isPrefixOf cs then pure (v, cs.drop w.length) else throw .toml

def readWord : Reader Value := words.foldr (fun (w, v) k => word w v <|> k) (throw .toml)

def scalar : Reader (Except Fault Value) :=
  (do
    let v ← readMoment
    pure (v.elim (.error .toml) .ok))
  <|> (do
    let t ← readClock
    pure (.ok (.clock t)))
  <|> .ok <$> based 'x' 16 <|> .ok <$> based 'b' 2 <|> .ok <$> based 'o' 8
  <|> decimal <|> .ok <$> readWord

def isScalarPart (c : Char) : Bool := c.isAlphanum || " +-.:_".toList.contains c

def readScalar : Reader Value := inFront isScalarPart do
  match ← scalar with
  | .ok v => pure v
  | .error e => throw e

end AssetCatalog.Toml
