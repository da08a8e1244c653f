import AssetCatalog.Fault
import AssetCatalog.Number.Binary64
import AssetCatalog.Text.Basic
import AssetCatalog.Text.Quoted

/-! Numbers from texts. Where the base is no power of two, the number of digits has a limit. -/

namespace AssetCatalog.Number

variable (base : Nat) (s : List Char)

def digitIn (c : Char) : Option Nat :=
  let v :=
    if 'a' ≤ c && c ≤ 'f' then some (c.toNat - 87)
    else if 'A' ≤ c && c ≤ 'F' then some (c.toNat - 55)
    else Text.decimalValue? c
  v.filter (· < base)

def digitRun (base : Nat) : List Char → Option (List Nat)
  | [] => none
  | [c] => (digitIn base c).map ([·])
  | c :: '_' :: cs => do
    let d ← digitIn base c
    let ds ← digitRun base cs
    some (d :: ds)
  | c :: cs => do
    let d ← digitIn base c
    let ds ← digitRun base cs
    some (d :: ds)

def ofDigits (ds : List Nat) : Nat := ds.foldl (fun n d => n * base + d) 0

def signOf : List Char → Bool × List Char
  | '-' :: cs => (true, cs)
  | '+' :: cs => (false, cs)
  | cs => (false, cs)

def withoutMark (cs : List Char) : List Char :=
  let marks := if base = 16 then ['x', 'X'] else if base = 8 then ['o', 'O']
    else if base = 2 then ['b', 'B'] else []
  match cs with
  | '0' :: m :: '_' :: rest => if marks.contains m then rest else cs
  | '0' :: m :: rest => if marks.contains m then rest else cs
  | _ => cs

/-- The most digits of a whole number in a text, in a base that is no power of two. -/
def digitLimit : Nat := 4300

def beyondLimit (rest : String) : Fault :=
  .invalid (s!"Exceeds the limit ({digitLimit} digits) for integer string conversion" ++ rest ++
    "; use sys.set_int_max_str_digits() to increase the limit")

def tooManyDigits (count : Nat) : Fault := beyondLimit s!": value has {count} digits"

def notWritable : Fault := beyondLimit ""

def isPowerOfTwo : Bool := [2, 4, 8, 16].contains base

def checkDigits (base count : Nat) : Except Fault Unit :=
  if digitLimit < count && !isPowerOfTwo base then throw (tooManyDigits count) else pure ()

def isWritable (n : Int) : Bool := n.natAbs < Nat.pow 10 digitLimit

def notWhole : Fault :=
  let shown := Text.take 200 (Text.quoted (String.ofList s))
  .invalid s!"invalid literal for int() with base {base}: {shown}"

/-- The whole number that a text denotes in a base; its usual mark may stand in front. The digits at the
start are counted before what follows them is looked at. -/
def int : Except Fault Int := do
  let (negative, cs) := signOf (Text.trimList Text.isBlank s)
  let body := withoutMark base cs
  let run := body.takeWhile fun c => c = '_' || (digitIn base c).isSome
  match digitRun base run with
  | none => throw (notWhole base s)
  | some ds =>
    checkDigits base ds.length
    if run.length < body.length then throw (notWhole base s)
    let n : Int := ofDigits base ds
    pure (if negative then -n else n)

def int? : Option Int := (int base s).toOption

def isDigitOrBar (c : Char) : Bool := Text.isDecimal c || c = '_'

def float? : Option Binary64 :=
  let (negative, cs) := signOf (Text.trimList Text.isBlank s)
  let word := String.ofList (cs.map Char.toLower)
  if word = "inf" || word = "infinity" then some (.infinite negative)
  else if word = "nan" then some .notANumber
  else
    let whole := cs.takeWhile isDigitOrBar
    let rest := cs.drop whole.length
    let (part, rest, pointed) := match rest with
      | '.' :: more =>
        let p := more.takeWhile isDigitOrBar
        (p, more.drop p.length, true)
      | _ => ([], rest, false)
    let run (ds : List Char) : Option (List Nat) := if ds.isEmpty then some [] else digitRun 10 ds
    let exponent : Option Int := match rest with
      | [] => some 0
      | e :: more =>
        if e = 'e' || e = 'E' then
          let (minus, ds) := signOf more
          (digitRun 10 ds).map fun ds =>
            let n : Int := ofDigits 10 ds
            if minus then -n else n
        else none
    match run whole, run part, exponent with
    | some ws, some ps, some e =>
      if ws.isEmpty && (ps.isEmpty || !pointed) then none
      else some (Binary64.ofDecimal negative (ofDigits 10 (ws ++ ps)) (e - ps.length))
    | _, _, _ => none

end AssetCatalog.Number
