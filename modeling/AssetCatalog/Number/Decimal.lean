import AssetCatalog.Number.Binary64

/-! Decimal texts of doubles: the fewest digits that read back, and a fixed number of places. -/

namespace AssetCatalog.Binary64

variable (places : Nat)

def decimalDigits (n : Nat) : String := String.ofList (Nat.toDigits 10 n)

def power10 (num den : Nat) (k : Int) : Nat × Nat :=
  if 0 ≤ k then (num, den * Nat.pow 10 k.toNat) else (num * Nat.pow 10 (-k).toNat, den)

def floorLog10 (num den : Nat) : Int :=
  let p : Int := ((Nat.toDigits 10 num).length : Int) - (Nat.toDigits 10 den).length
  let (a, b) := power10 num den p
  if b ≤ a then p else p - 1

def interval (m : Nat) (e : Int) : Nat × Nat × Nat × Nat :=
  let unit := ratio 1 e
  let below := if m = Nat.pow 2 52 && leastExponent < e then 1 else 2
  (4 * m * unit.1, (4 * m - below) * unit.1, (4 * m + 2) * unit.1, 4 * unit.2)

def withDigits (m : Nat) (e : Int) (k : Nat) : Option (Nat × Int) :=
  let (v, lo, hi, den) := interval m e
  let p := floorLog10 v den - k + 1
  let inside (d : Nat) : Bool :=
    let (g, h) := if 0 ≤ p then (d * Nat.pow 10 p.toNat * den, 1) else (d * den, Nat.pow 10 (-p).toNat)
    if m % 2 = 0 then lo * h ≤ g && g ≤ hi * h else lo * h < g && g < hi * h
  let (a, b) := power10 v den p
  let d := a / b
  let rest := 2 * (a % b)
  let nearer := if rest < b then d else if b < rest then d + 1 else d + d % 2
  let other := if nearer = d then d + 1 else d
  if inside nearer then some (nearer, p) else if inside other then some (other, p) else none

/-- The fewest digits that read back as the double `m · 2 ^ e`, and the power of ten they count. -/
def shortest (m : Nat) (e : Int) : Nat × Int :=
  ((List.range 17).findSome? fun k => withDigits m e (k + 1)).getD (withDigits m e 17 |>.getD (0, 0))

def dropZeros : Nat → Nat → Int → Nat × Int
  | 0, d, p => (d, p)
  | fuel + 1, d, p => if d ≠ 0 && d % 10 = 0 then dropZeros fuel (d / 10) (p + 1) else (d, p)

/-- Positional from `1e-4` up to `1e16`, otherwise with an exponent of two digits or more; a whole
number shows `fraction` after it. -/
def layout (fraction : String) (d : Nat) (p : Int) : String :=
  let digits := decimalDigits d
  let n : Int := digits.length
  let point := n + p
  if -4 < point && point ≤ 16 then
    if point ≤ 0 then "0." ++ String.ofList (List.replicate (-point).toNat '0') ++ digits
    else if n ≤ point then
      digits ++ String.ofList (List.replicate (point - n).toNat '0') ++ fraction
    else
      String.ofList (digits.toList.take point.toNat) ++ "." ++
        String.ofList (digits.toList.drop point.toNat)
  else
    let mantissa := match digits.toList with
      | c :: c' :: cs => String.ofList (c :: '.' :: c' :: cs)
      | cs => String.ofList cs
    let x := point - 1
    let size := decimalDigits x.natAbs
    mantissa ++ "e" ++ (if x < 0 then "-" else "+") ++ (if size.length < 2 then "0" else "") ++ size

def textWith (fraction : String) : Binary64 → String
  | .notANumber => "nan"
  | .infinite s => if s then "-inf" else "inf"
  | .finite s m e =>
    let sign := if s then "-" else ""
    if m = 0 then sign ++ "0" ++ fraction
    else
      let (d, p) := shortest m e
      let (d, p) := dropZeros 17 d p
      sign ++ layout fraction d p

def text (x : Binary64) : String := textWith ".0" x

def atPlaces (m : Nat) (e : Int) : Nat :=
  let (a, b) := ratio m e
  roundDiv (a * Nat.pow 10 places) b

def fixed : Binary64 → String
  | .notANumber => "nan"
  | .infinite s => if s then "-inf" else "inf"
  | .finite s m e =>
    let digits := Nat.toDigits 10 (atPlaces places m e)
    let digits := List.replicate (places + 1 - digits.length) '0' ++ digits
    let whole := digits.take (digits.length - places)
    let part := digits.drop (digits.length - places)
    (if s then "-" else "") ++ String.ofList whole ++
      (if places = 0 then "" else "." ++ String.ofList part)

def roundTo : Binary64 → Binary64
  | .finite s m e => ofDecimal s (atPlaces places m e) (-places)
  | x => x

def percent (x : Binary64) : String := fixed places (mul x (ofInt 100)) ++ "%"

end AssetCatalog.Binary64
