import AssetCatalog.Value.Basic
import AssetCatalog.Number.Reading

/-! The kinds of plain scalars, decided by their texts, and the values that scalar texts denote. -/

namespace AssetCatalog.Yaml

variable (cs : List Char) (text : String)

def standard (name : String) : String := "tag:yaml.org,2002:" ++ name

def isDigitBar (c : Char) : Bool := c.isDigit || c = '_'

def isSixties (parts : List (List Char)) : Bool :=
  !parts.isEmpty && parts.all fun p =>
    match p with
    | [d] => d.isDigit
    | [t, d] => '0' ≤ t && t ≤ '5' && d.isDigit
    | _ => false

def unsigned : List Char → List Char
  | '-' :: cs => cs
  | '+' :: cs => cs
  | cs => cs

def isInt : Bool :=
  let body := unsigned cs
  match body with
  | ['0'] => true
  | '0' :: 'b' :: ds => !ds.isEmpty && ds.all fun c => c = '0' || c = '1' || c = '_'
  | '0' :: 'x' :: ds => !ds.isEmpty && ds.all fun c =>
      c.isDigit || c = '_' || ('a' ≤ c && c ≤ 'f') || ('A' ≤ c && c ≤ 'F')
  | '0' :: ds => ds.all fun c => ('0' ≤ c && c ≤ '7') || c = '_'
  | d :: _ =>
    d.isDigit && match Text.splitList [':'] body with
      | whole :: parts => whole.all isDigitBar && (parts.isEmpty || isSixties parts)
      | [] => false
  | [] => false

def isExponent : List Char → Bool
  | [] => true
  | e :: s :: ds => (e = 'e' || e = 'E') && (s = '-' || s = '+') && !ds.isEmpty && ds.all Char.isDigit
  | _ => false

def isFloat : Bool :=
  let body := unsigned cs
  let word := String.ofList body
  if word = ".inf" || word = ".Inf" || word = ".INF" then true
  else
    let text := String.ofList cs
    if text = ".nan" || text = ".NaN" || text = ".NAN" then true
    else match cs with
      | '.' :: d :: rest => d.isDigit && isExponent (rest.dropWhile isDigitBar)
      | _ =>
        match body with
        | d :: _ =>
          d.isDigit &&
            let whole := body.takeWhile isDigitBar
            match body.drop whole.length with
            | '.' :: rest => isExponent (rest.dropWhile isDigitBar)
            | ':' :: rest =>
              match Text.cutList? ['.'] rest with
              | some (sixties, part) =>
                isSixties (Text.splitList [':'] sixties) && part.all isDigitBar
              | none => false
            | _ => false
        | [] => false

structure Timestamp where
  year : List Char
  month : List Char
  day : List Char
  time : Option (List Char × List Char × List Char × List Char) := none
  zone : Option (Option (Bool × List Char × List Char)) := none

def digits (least most : Nat) (cs : List Char) : Option (List Char × List Char) :=
  let ds := (cs.take most).takeWhile Char.isDigit
  if least ≤ ds.length then some (ds, cs.drop ds.length) else none

def expect (c : Char) : List Char → Option (List Char)
  | d :: cs => if d = c then some cs else none
  | [] => none

def zoneOf : Option (Option (Option (Bool × List Char × List Char))) :=
  match cs.dropWhile fun c => c = ' ' || c = '\t' with
  | [] => if cs.isEmpty then some none else none
  | ['Z'] => some (some none)
  | s :: rest =>
    if s = '-' || s = '+' then do
      let (h, rest) ← digits 1 2 rest
      match rest with
      | [] => some (some (some (s = '-', h, [])))
      | ':' :: rest => do
        let (m, rest) ← digits 2 2 rest
        if rest.isEmpty then some (some (some (s = '-', h, m))) else none
      | _ => none
    else none

def fraction : List Char → List Char × List Char
  | '.' :: cs =>
    let part := cs.takeWhile Char.isDigit
    (part, cs.drop part.length)
  | cs => ([], cs)

def clock? : Option ((List Char × List Char × List Char × List Char) ×
    Option (Option (Bool × List Char × List Char))) := do
  let (hour, cs) ← digits 1 2 cs
  let (minute, cs) ← digits 2 2 (← expect ':' cs)
  let (second, cs) ← digits 2 2 (← expect ':' cs)
  let (part, cs) := fraction cs
  let zone ← zoneOf cs
  some ((hour, minute, second, part), zone)

def clockStart? (c : Char) (cs : List Char) : Option (List Char) :=
  if c = 'T' || c = 't' then some cs
  else if c = ' ' || c = '\t' then some (cs.dropWhile fun c => c = ' ' || c = '\t')
  else none

def timestamp? : Option Timestamp := do
  let (year, cs) ← digits 4 4 cs
  let (month, cs) ← digits 1 2 (← expect '-' cs)
  let (day, cs) ← digits 1 2 (← expect '-' cs)
  match cs with
  | [] => some { year, month, day }
  | c :: cs =>
    let (time, zone) ← clock? (← clockStart? c cs)
    some { year, month, day, time := some time, zone }

def isTimestamp : Bool :=
  match timestamp? cs with
  | some t => t.time.isSome || (t.month.length = 2 && t.day.length = 2)
  | none => false

def isBool (s : String) : Bool :=
  ["yes", "Yes", "YES", "no", "No", "NO", "true", "True", "TRUE", "false", "False", "FALSE",
    "on", "On", "ON", "off", "Off", "OFF"].contains s

/-- A text without the one line end that may close it; a line end alone stays. -/
def withoutLineEnd : List Char :=
  if 1 < cs.length && cs.getLast? = some '\n' then cs.dropLast else cs

/-- The tag that a text stands under whose form decides its kind. A line end after it does not
count. -/
def impliedTag : String :=
  let cs := withoutLineEnd text.toList
  let s := String.ofList cs
  standard <|
    if isBool s then "bool"
    else if isFloat cs then "float"
    else if isInt cs then "int"
    else if s = "<<" then "merge"
    else if s = "~" || s = "null" || s = "Null" || s = "NULL" || s = "" then "null"
    else if isTimestamp cs then "timestamp"
    else if s = "=" then "value"
    else if s = "!" || s = "&" || s = "*" then "yaml"
    else "str"

def natOf : Nat := cs.foldl (fun n c => n * 10 + (c.toNat - 48)) 0

def sixtyFold (parts : List Int) : Int := parts.foldl (fun n d => n * 60 + d) 0

def floatOr : Except Fault Binary64 :=
  match Number.float? cs with
  | some x => pure x
  | none =>
    let shown := Text.quoted (String.ofList cs)
    throw (.invalid s!"could not convert string to float: {shown}")

def intValue : Except Fault Int := do
  let cs := text.toList.filter (· ≠ '_')
  match cs with
  | [] => throw .noIndex
  | c :: _ =>
    let body := unsigned cs
    let n ← match body with
      | ['0'] => pure 0
      | '0' :: 'b' :: ds => Number.int 2 ds
      | '0' :: 'x' :: ds => Number.int 16 ds
      | '0' :: _ => Number.int 8 body
      | [] => throw .noIndex
      | _ =>
        if body.contains ':' then do
          let parts ← (Text.splitList [':'] body).mapM (Number.int 10)
          pure (sixtyFold parts)
        else Number.int 10 body
    pure (if c = '-' then -n else n)

def sixtyFloat (parts : List Binary64) : Except Fault Binary64 := do
  let sum ← parts.reverse.foldlM (fun (acc : Binary64 × Int) d =>
    match Binary64.ofInt acc.2 with
    | .infinite _ => throw Fault.tooLarge
    | unit => pure (acc.1.add (d.mul unit), acc.2 * 60)) (Binary64.zero, 1)
  pure sum.1

def floatValue : Except Fault Binary64 := do
  let cs := (text.toList.filter (· ≠ '_')).map Char.toLower
  match cs with
  | [] => throw .noIndex
  | c :: _ =>
    let body := unsigned cs
    let word := String.ofList body
    let x ←
      if word = ".inf" then pure (.infinite false)
      else if word = ".nan" then pure .notANumber
      else if body.contains ':' then do
        let parts ← (Text.splitList [':'] body).mapM floatOr
        sixtyFloat parts
      else floatOr body
    pure (if c = '-' then x.neg else x)

def micros (part : List Char) : Nat :=
  natOf ((part.take 6) ++ List.replicate (6 - part.length) '0')

def offsetFault (minutes : Int) : Fault :=
  let days := minutes.fdiv 1440
  let seconds := minutes.fmod 1440 * 60
  let rest := if seconds = 0 then "" else s!", seconds={seconds}"
  .invalid ("offset must be a timedelta strictly between -timedelta(hours=24) and " ++
    s!"timedelta(hours=24), not datetime.timedelta(days={days}{rest}).")

def timestampValue : Except Fault Value := do
  match timestamp? (withoutLineEnd text.toList) with
  | none => throw .noMember
  | some t =>
    let date := Date.ofParts? (natOf t.year) (natOf t.month) (natOf t.day)
    match t.time with
    | none => ((date.map (pure ∘ Value.date)).getD (throw .outOfRange))
    | some (h, m, s, part) =>
      let minutes : Option Int := t.zone.map fun z =>
        match z with
        | none => 0
        | some (minus, zh, zm) =>
          let size : Int := natOf zh * 60 + natOf zm
          if minus then -size else size
      if (minutes.getD 0).natAbs < 1440 then
        let offset := minutes.map (· * (60 * Moment.secondLength))
        match Moment.ofParts? date (natOf h) (natOf m) (natOf s) (micros part) offset with
        | some t => pure (.moment t)
        | none => throw .outOfRange
      else throw (offsetFault (minutes.getD 0))

def base64Digit? (c : Char) : Option Nat :=
  if 'A' ≤ c && c ≤ 'Z' then some (c.toNat - 65)
  else if 'a' ≤ c && c ≤ 'z' then some (c.toNat - 71)
  else if c.isDigit then some (c.toNat + 4)
  else if c = '+' then some 62
  else if c = '/' then some 63
  else none

/-- Bytes from base 64: other characters are passed over, and padding ends the text. `quad` counts
the digits of the current group and `left` holds the bits that are not yet in a byte. -/
def base64Bytes : List Char → (quad left pads : Nat) → List UInt8 → Option (List UInt8)
  | [], quad, _, _, acc => if quad = 0 then some acc else none
  | c :: cs, quad, left, pads, acc =>
    if c = '=' then
      if 2 ≤ quad then
        if 4 ≤ quad + (pads + 1) then some acc else base64Bytes cs quad left (pads + 1) acc
      else base64Bytes cs quad left pads acc
    else
      match base64Digit? c with
      | none => base64Bytes cs quad left pads acc
      | some d =>
        match quad with
        | 0 => base64Bytes cs 1 d 0 acc
        | 1 => base64Bytes cs 2 (d % 16) 0 (acc ++ [(left * 4 + d / 16).toUInt8])
        | 2 => base64Bytes cs 3 (d % 4) 0 (acc ++ [(left * 16 + d / 4).toUInt8])
        | _ => base64Bytes cs 0 0 0 (acc ++ [(left * 64 + d).toUInt8])

def scalarValue (tag text : String) : Except Fault Value :=
  if tag = standard "str" then pure (.text text)
  else if tag = standard "null" then pure .null
  else if tag = standard "bool" then
    let word := text.toList.map Char.toLower |> String.ofList
    if word = "yes" || word = "true" || word = "on" then pure (.bool true)
    else if word = "no" || word = "false" || word = "off" then pure (.bool false)
    else throw .noKey
  else if tag = standard "int" then (intValue text).map .int
  else if tag = standard "float" then (floatValue text).map .float
  else if tag = standard "timestamp" then timestampValue text
  else if tag = standard "binary" then
    if text.toList.all (·.toNat < 128) then
      match base64Bytes text.toList 0 0 0 [] with
      | some bs => pure (.bytes bs)
      | none => throw .yaml
    else throw .yaml
  else throw .yaml

end AssetCatalog.Yaml
