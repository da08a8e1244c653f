import AssetCatalog.Calendar
import AssetCatalog.Fault
import AssetCatalog.Text.Basic

/-! Reading moments: a text is tried against formats, which are lists of pieces with several shapes. -/

namespace AssetCatalog.Freshness

inductive Slot where
  | digit (low high : Nat)
  | decimal
  | blank
deriving DecidableEq, Repr, Inhabited

def Slot.value? (s : Slot) (c : Char) : Option Nat :=
  match s with
  | .digit low high =>
    let n := c.toNat - 48
    if 48 ≤ c.toNat && low ≤ n && n ≤ high then some n else none
  | .decimal => Text.decimalValue? c
  | .blank => if c = ' ' then some 0 else none

def readShape : List Slot → Nat → List Char → Option (Nat × List Char)
  | [], n, cs => some (n, cs)
  | _ :: _, _, [] => none
  | s :: ss, n, c :: cs => (s.value? c).bind fun d => readShape ss (n * 10 + d) cs

def readField (shapes : List (List Slot)) (cs : List Char) : Option (Nat × List Char) :=
  shapes.findSome? fun shape => readShape shape 0 cs

def sixtieth : List Slot := [.digit 0 5, .decimal]

def yearShapes : List (List Slot) := [[.decimal, .decimal, .decimal, .decimal]]

def monthShapes : List (List Slot) :=
  [[.digit 1 1, .digit 0 2], [.digit 0 0, .digit 1 9], [.digit 1 9]]

def dayShapes : List (List Slot) :=
  [ [.digit 3 3, .digit 0 1], [.digit 1 2, .decimal], [.digit 0 0, .digit 1 9], [.digit 1 9],
    [.blank, .digit 1 9] ]

def hourShapes : List (List Slot) := [[.digit 2 2, .digit 0 3], [.digit 0 1, .decimal], [.decimal]]

def minuteShapes : List (List Slot) := [sixtieth, [.decimal]]

/-- The shapes of a second; two more than sixty leave room for leaps. -/
def secondShapes : List (List Slot) := [[.digit 6 6, .digit 0 1], sixtieth, [.decimal]]

def takeColon : List Char → Bool × List Char
  | ':' :: cs => (true, cs)
  | cs => (false, cs)

def readMillionths (cs : List Char) : Nat × List Char :=
  match cs with
  | '.' :: rest =>
    let digits := (rest.take 6).takeWhile Text.isDecimal
    if digits.isEmpty then (0, cs)
    else
      let n := digits.foldl (fun n c => n * 10 + (Text.decimalValue? c).getD 0) 0
      (n * Nat.pow 10 (6 - digits.length), rest.drop digits.length)
  | _ => (0, cs)

/-- The size of an offset in microseconds: hours, minutes and, if they are there, seconds. Colons
stand either at every joint or at none. -/
def readOffsetSize (cs : List Char) : Option (Nat × List Char) := do
  let (hours, cs) ← readShape [.decimal, .decimal] 0 cs
  let (first, cs) := takeColon cs
  let (minutes, cs) ← readShape sixtieth 0 cs
  let whole := (hours * 60 + minutes) * 60
  let (second, inner) := takeColon cs
  match readShape sixtieth 0 inner with
  | none => some (whole * 1000000, cs)
  | some (seconds, cs) =>
    if first = second then
      let (millionths, cs) := readMillionths cs
      some ((whole + seconds) * 1000000 + millionths, cs)
    else none

def readOffset : List Char → Option (Int × List Char)
  | 'Z' :: cs => some (0, cs)
  | '+' :: cs => within (readOffsetSize cs) 1
  | '-' :: cs => within (readOffsetSize cs) (-1)
  | _ => none
where
  within (r : Option (Nat × List Char)) (sign : Int) : Option (Int × List Char) :=
    r.bind fun (n, cs) => if (n : Int) < Moment.dayLength then some (sign * n, cs) else none

inductive Piece where
  | year
  | month
  | day
  | hour
  | minute
  | second
  | offset
  | mark (c : Char)
  | space
deriving DecidableEq, Repr, Inhabited

structure Fields where
  year : Nat := 1900
  month : Nat := 1
  day : Nat := 1
  hour : Nat := 0
  minute : Nat := 0
  second : Nat := 0
  offset : Option Int := none
deriving DecidableEq, Repr, Inhabited

def readPiece (f : Fields) (cs : List Char) : Piece → Option (Fields × List Char)
  | .year => (readField yearShapes cs).map fun (n, cs) => ({ f with year := n }, cs)
  | .month => (readField monthShapes cs).map fun (n, cs) => ({ f with month := n }, cs)
  | .day => (readField dayShapes cs).map fun (n, cs) => ({ f with day := n }, cs)
  | .hour => (readField hourShapes cs).map fun (n, cs) => ({ f with hour := n }, cs)
  | .minute => (readField minuteShapes cs).map fun (n, cs) => ({ f with minute := n }, cs)
  | .second => (readField secondShapes cs).map fun (n, cs) => ({ f with second := n }, cs)
  | .offset => (readOffset cs).map fun (n, cs) => ({ f with offset := some n }, cs)
  | .mark m =>
    match cs with
    | c :: cs => if c.toLower = m.toLower then some (f, cs) else none
    | [] => none
  | .space =>
    match cs with
    | c :: cs => if Text.isBlank c then some (f, cs.dropWhile Text.isBlank) else none
    | [] => none

def readAs : List Piece → Fields → List Char → Option Fields
  | [], f, cs => if cs.isEmpty then some f else none
  | p :: ps, f, cs => (readPiece f cs p).bind fun (f, cs) => readAs ps f cs

def datePieces : List Piece := [.year, .mark '-', .month, .mark '-', .day]

def timePieces : List Piece := [.hour, .mark ':', .minute, .mark ':', .second]

def formats : List (List Piece) :=
  [ datePieces ++ [.mark 'T'] ++ timePieces ++ [.mark 'Z'],
    datePieces ++ [.space] ++ timePieces ++ [.offset],
    datePieces ++ [.mark 'T'] ++ timePieces ++ [.offset],
    datePieces ]

def Fields.moment? (f : Fields) : Option Moment :=
  Moment.ofParts? (Date.ofParts? f.year f.month f.day) f.hour f.minute f.second 0
    (some (f.offset.getD 0))

def parseMoment? (s : String) : Option Moment :=
  formats.findSome? fun format => (readAs format {} s.toList).bind Fields.moment?

def parseMoment (s : String) : Except Fault Moment :=
  match parseMoment? s with
  | some t => pure t
  | none => throw (.invalid s!"Cannot parse date: {s}")

end AssetCatalog.Freshness
