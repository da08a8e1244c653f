import AssetCatalog.Text.Class

/-! Quoted forms of texts and of byte strings. -/

namespace AssetCatalog.Text

def hexPadded (width n : Nat) : String :=
  let digits := Nat.toDigits 16 n
  String.ofList (List.replicate (width - digits.length) '0' ++ digits)

def quoteFor (cs : List Char) : Char :=
  if cs.contains '\'' && !cs.contains '"' then '"' else '\''

def quotedChar (q c : Char) : String :=
  if c = q || c = '\\' then String.ofList ['\\', c]
  else if c = '\t' then "\\t" else if c = '\n' then "\\n" else if c = '\r' then "\\r"
  else if isPrintable c then String.singleton c
  else if c.toNat < 256 then "\\x" ++ hexPadded 2 c.toNat
  else if c.toNat < 65536 then "\\u" ++ hexPadded 4 c.toNat
  else "\\U" ++ hexPadded 8 c.toNat

def quoted (s : String) : String :=
  let q := quoteFor s.toList
  String.singleton q ++ String.join (s.toList.map (quotedChar q)) ++ String.singleton q

def quotedByte (q : Char) (b : UInt8) : String :=
  let c := Char.ofNat b.toNat
  if c = q || c = '\\' then String.ofList ['\\', c]
  else if c = '\t' then "\\t" else if c = '\n' then "\\n" else if c = '\r' then "\\r"
  else if 32 ≤ b.toNat && b.toNat < 127 then String.singleton c
  else "\\x" ++ hexPadded 2 b.toNat

def quotedBytes (bs : List UInt8) : String :=
  let q := quoteFor (bs.map fun b => Char.ofNat b.toNat)
  "b" ++ String.singleton q ++ String.join (bs.map (quotedByte q)) ++ String.singleton q

end AssetCatalog.Text
