import AssetCatalog.Value.Basic
import AssetCatalog.Number.Decimal
import AssetCatalog.Number.Reading

/-! How values are shown: the exact form, with texts in quotes, and the plain form. A whole number beyond
the limit on digits cannot be shown. -/

namespace AssetCatalog.Value

def offsetForm (offset : Int) : String :=
  if offset = 0 then "datetime.timezone.utc"
  else
    let days := Int.fdiv offset Moment.dayLength
    let rest := (offset - days * Moment.dayLength).toNat
    let secs := rest / 1000000
    let micros := rest % 1000000
    let parts := (if days = 0 then [] else ["days=" ++ toString days]) ++
      (if secs = 0 then [] else ["seconds=" ++ toString secs]) ++
      (if micros = 0 then [] else ["microseconds=" ++ toString micros])
    "datetime.timezone(datetime.timedelta(" ++ Text.join ", " parts ++ "))"

def clockForm (hour minute second micro : Nat) : List String :=
  [toString hour, toString minute] ++
    (if second = 0 && micro = 0 then []
     else toString second :: (if micro = 0 then [] else [toString micro]))

def dateForm (d : Date) : List String :=
  [toString d.year, toString d.month, toString d.day]

def momentForm (t : Moment) : String :=
  "datetime.datetime(" ++ Text.join ", "
    (dateForm t.date ++ clockForm t.hour t.minute t.second t.micro ++
      (t.offset.map fun o => ["tzinfo=" ++ offsetForm o]).getD []) ++ ")"

mutual

def exact : Value → String
  | .null => "None"
  | .bool b => if b then "True" else "False"
  | .int n => toString n
  | .float x => x.text
  | .imaginary x => x.textWith "" ++ "j"
  | .text s => Text.quoted s
  | .bytes bs => Text.quotedBytes bs
  | .date d => "datetime.date(" ++ Text.join ", " (dateForm d) ++ ")"
  | .moment t => momentForm t
  | .clock t => "datetime.time(" ++ Text.join ", " (clockForm t.hour t.minute t.second t.micro) ++ ")"
  | .ellipsis => "Ellipsis"
  | .list xs => "[" ++ Text.join ", " (exactAll xs) ++ "]"
  | .tuple [x] => "(" ++ exact x ++ ",)"
  | .tuple xs => "(" ++ Text.join ", " (exactAll xs) ++ ")"
  | .set [] => "set()"
  | .set xs => "\x7b" ++ Text.join ", " (exactAll xs) ++ "\x7d"
  | .map es => "\x7b" ++ Text.join ", " (exactEntries es) ++ "\x7d"

def exactAll : List Value → List String
  | [] => []
  | x :: xs => exact x :: exactAll xs

def exactEntries : List (Value × Value) → List String
  | [] => []
  | (k, v) :: es => (exact k ++ ": " ++ exact v) :: exactEntries es

end

def plain : Value → String
  | .text s => s
  | .date d => d.text
  | .moment t => t.text " "
  | .clock t => Moment.clockText t.hour t.minute t.second t.micro
  | v => exact v

mutual

def isWritable : Value → Bool
  | .int n => Number.isWritable n
  | .list xs => areWritable xs
  | .tuple xs => areWritable xs
  | .set xs => areWritable xs
  | .map es => hasWritable es
  | _ => true

def areWritable : List Value → Bool
  | [] => true
  | x :: xs => isWritable x && areWritable xs

def hasWritable : List (Value × Value) → Bool
  | [] => true
  | (k, v) :: es => isWritable k && isWritable v && hasWritable es

end

def checkWritable (v : Value) : Except Fault Unit :=
  if v.isWritable then pure () else throw Number.notWritable

def exactText (v : Value) : Except Fault String := do
  v.checkWritable
  pure v.exact

def plainText (v : Value) : Except Fault String := do
  v.checkWritable
  pure v.plain

end AssetCatalog.Value
