/-! Double-precision numbers as exact dyadic fractions: each operation rounds its exact result once. -/

namespace AssetCatalog

/-- A double-precision number. A finite one is `± significand · 2 ^ exponent`, where the exponent is
at least -1074 and the significand is below `2 ^ 53` and has 53 bits unless the exponent is -1074. -/
inductive Binary64 where
  | finite (negative : Bool) (significand : Nat) (exponent : Int)
  | infinite (negative : Bool)
  | notANumber
deriving DecidableEq, Repr, Inhabited

namespace Binary64

def leastExponent : Int := -1074

def zero : Binary64 := .finite false 0 leastExponent

def roundDiv (num den : Nat) : Nat :=
  let q := num / den
  let twice := 2 * (num % den)
  if twice < den then q else if den < twice then q + 1 else q + q % 2

def scaled (num den : Nat) (e : Int) : Nat × Nat :=
  if 0 ≤ e then (num, den * Nat.pow 2 e.toNat) else (num * Nat.pow 2 (-e).toNat, den)

/-- The whole number `l` with `2 ^ l ≤ num / den < 2 ^ (l + 1)`, for positive arguments. -/
def floorLog2 (num den : Nat) : Int :=
  let l : Int := (num.log2 : Int) - den.log2
  let (a, b) := scaled num den l
  if b ≤ a then l else l - 1

/-- The double nearest to `± num / den`. -/
def ofRatio (negative : Bool) (num den : Nat) : Binary64 :=
  if num = 0 then .finite negative 0 leastExponent
  else
    let e := max (floorLog2 num den - 52) leastExponent
    let (a, b) := scaled num den e
    let m := roundDiv a b
    let (m, e) := if m = Nat.pow 2 53 then (Nat.pow 2 52, e + 1) else (m, e)
    if 971 < e then .infinite negative else .finite negative m e

def ratio (m : Nat) (e : Int) : Nat × Nat :=
  if 0 ≤ e then (m * Nat.pow 2 e.toNat, 1) else (m, Nat.pow 2 (-e).toNat)

def ofInt (n : Int) : Binary64 := ofRatio (n < 0) n.natAbs 1

def ofDecimal (negative : Bool) (digits : Nat) (exponent : Int) : Binary64 :=
  let size : Int := (Nat.toDigits 10 digits).length + exponent
  if digits = 0 then .finite negative 0 leastExponent
  else if 400 < size then .infinite negative
  else if size < -400 then .finite negative 0 leastExponent
  else if 0 ≤ exponent then ofRatio negative (digits * Nat.pow 10 exponent.toNat) 1
  else ofRatio negative digits (Nat.pow 10 (-exponent).toNat)

def neg : Binary64 → Binary64
  | .finite s m e => .finite (!s) m e
  | .infinite s => .infinite (!s)
  | .notANumber => .notANumber

def isZero : Binary64 → Bool
  | .finite _ m _ => m = 0
  | _ => false

def numerator (s : Bool) (m : Nat) (e : Int) : Int :=
  let n : Int := (m * Nat.pow 2 (e - leastExponent).toNat : Nat)
  if s then -n else n

def ofNumerator (negativeZero : Bool) (n : Int) (den : Nat) : Binary64 :=
  if n = 0 then .finite negativeZero 0 leastExponent else ofRatio (n < 0) n.natAbs den

def add : Binary64 → Binary64 → Binary64
  | .finite s m e, .finite s' m' e' =>
    ofNumerator (s && s') (numerator s m e + numerator s' m' e') (Nat.pow 2 1074)
  | .notANumber, _ => .notANumber
  | _, .notANumber => .notANumber
  | .infinite s, .infinite s' => if s = s' then .infinite s else .notANumber
  | .infinite s, _ => .infinite s
  | _, .infinite s => .infinite s

def sub (x y : Binary64) : Binary64 := add x (neg y)

def mul : Binary64 → Binary64 → Binary64
  | .finite s m e, .finite s' m' e' =>
    let (a, b) := ratio m e
    let (a', b') := ratio m' e'
    ofRatio (s != s') (a * a') (b * b')
  | .notANumber, _ => .notANumber
  | _, .notANumber => .notANumber
  | .infinite s, .infinite s' => .infinite (s != s')
  | .infinite s, .finite s' m _ => if m = 0 then .notANumber else .infinite (s != s')
  | .finite s m _, .infinite s' => if m = 0 then .notANumber else .infinite (s != s')

/-- Whether the first number is less than the second; never so beside something that is no number. -/
def lt : Binary64 → Binary64 → Bool
  | .notANumber, _ => false
  | _, .notANumber => false
  | .infinite s, .infinite s' => s && !s'
  | .infinite s, .finite .. => s
  | .finite .., .infinite s => !s
  | .finite s m e, .finite s' m' e' => numerator s m e < numerator s' m' e'

/-- Whether two numbers are equal in value; zeros of both signs are. -/
def same : Binary64 → Binary64 → Bool
  | .finite s m e, .finite s' m' e' => numerator s m e = numerator s' m' e'
  | .infinite s, .infinite s' => s = s'
  | _, _ => false

def sameInt : Binary64 → Int → Bool
  | .finite s m e, n => numerator s m e = n * (Nat.pow 2 1074 : Nat)
  | _, _ => false

end Binary64

end AssetCatalog
