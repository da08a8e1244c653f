import AssetCatalog.Text.Quoted

/-! Bytes that are no UTF-8: where the first fault stands and of what kind it is. -/

namespace AssetCatalog.Text

inductive Utf8Fault where
  | start
  | continuation
  | ending
deriving DecidableEq, Repr

def Utf8Fault.text : Utf8Fault → String
  | .start => "invalid start byte"
  | .continuation => "invalid continuation byte"
  | .ending => "unexpected end of data"

def continues (b : Nat) : Bool := 0x80 ≤ b && b < 0xc0

def secondFits (first second : Nat) : Bool :=
  continues second &&
    (if first = 0xe0 then 0xa0 ≤ second
     else if first = 0xed then second < 0xa0
     else if first = 0xf0 then 0x90 ≤ second
     else if first = 0xf4 then second < 0x90
     else true)

def lengthOf (first : Nat) : Option Nat :=
  if first < 0x80 then some 1
  else if first < 0xc2 then none
  else if first < 0xe0 then some 2
  else if first < 0xf0 then some 3
  else if first < 0xf5 then some 4
  else none

def tailFault (first done : Nat) : Nat → List Nat → Option (Nat × Utf8Fault)
  | 0, _ => none
  | _ + 1, [] => some (done, .ending)
  | need + 1, b :: bs =>
    if (if done = 1 then secondFits first b else continues b) then tailFault first (done + 1) need bs
    else some (done, .continuation)

def faultFrom (pos : Nat) : Nat → List Nat → Option (Nat × Nat × Utf8Fault)
  | 0, _ => none
  | _ + 1, [] => none
  | fuel + 1, b :: bs =>
    match lengthOf b with
    | none => some (pos, 1, .start)
    | some n =>
      match tailFault b 1 (n - 1) bs with
      | some (k, f) => some (pos, k, f)
      | none => faultFrom (pos + n) fuel (bs.drop (n - 1))

def utf8Fault? (bs : List UInt8) : Option (Nat × Nat × Utf8Fault) :=
  faultFrom 0 bs.length (bs.map UInt8.toNat)

def blockLength : Nat := 8192

/-- The bytes that have been read as text when the first fault is met. A fault shows at the first byte
that does not fit, and then nothing of the block of that byte counts, or only after the last byte. A
character that is not complete at the end of a block waits for the next one. -/
def readableBytes (bs : List UInt8) : List UInt8 :=
  match utf8Fault? bs with
  | none => bs
  | some (pos, _, .ending) => bs.take pos
  | some (pos, len, f) =>
    let shown := if f = .start then pos else pos + len
    let blocks := bs.take (min pos (shown / blockLength * blockLength))
    match utf8Fault? blocks with
    | none => blocks
    | some (pos, _, _) => blocks.take pos

def utf8Complaint (bs : List UInt8) : String :=
  match utf8Fault? bs with
  | none => ""
  | some (pos, len, f) =>
    if len = 1 then
      let byte := hexPadded 2 ((bs.map UInt8.toNat).getD pos 0)
      s!"'utf-8' codec can't decode byte 0x{byte} in position {pos}: {f.text}"
    else
      let last := pos + len - 1
      s!"'utf-8' codec can't decode bytes in position {pos}-{last}: {f.text}"

end AssetCatalog.Text
