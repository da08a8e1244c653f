import AssetCatalog.Tree

/-! Archives: stored files, a directory that lists them, and a record at the end that tells where it is. -/

namespace AssetCatalog.Wheel

def littleBytes : Nat → Nat → List UInt8
  | 0, _ => []
  | width + 1, n => n.toUInt8 :: littleBytes width (n / 256)

def littleNumber : List UInt8 → Nat
  | [] => 0
  | b :: bs => b.toNat + 256 * littleNumber bs

def checksumBit (c : UInt32) : UInt32 :=
  if c &&& 1 = 1 then (c >>> 1) ^^^ 0xEDB88320 else c >>> 1

def checksumByte (c : UInt32) (b : UInt8) : UInt32 :=
  (List.range 8).foldl (fun c _ => checksumBit c) (c ^^^ b.toUInt32)

def checksum (bs : List UInt8) : UInt32 := bs.foldl checksumByte 0xFFFFFFFF ^^^ 0xFFFFFFFF

def localMark : List UInt8 := [0x50, 0x4b, 3, 4]

def directoryMark : List UInt8 := [0x50, 0x4b, 1, 2]

def endMark : List UInt8 := [0x50, 0x4b, 5, 6]

structure Source where
  name : String
  content : List UInt8
deriving DecidableEq, Repr, Inhabited

def utf8Flag : Nat := 2048

def nameFlags (name : String) : Nat := if name.toList.all fun c => c.toNat < 128 then 0 else utf8Flag

def commonFields (s : Source) : List UInt8 :=
  littleBytes 2 20 ++ littleBytes 2 (nameFlags s.name) ++ littleBytes 2 0 ++ littleBytes 2 0 ++
    littleBytes 2 33 ++ littleBytes 4 (checksum s.content).toNat ++ littleBytes 4 s.content.length ++
    littleBytes 4 s.content.length ++ littleBytes 2 s.name.utf8ByteSize

def localRecord (s : Source) : List UInt8 :=
  localMark ++ commonFields s ++ littleBytes 2 0 ++ s.name.toUTF8.toList ++ s.content

def directoryRecord (s : Source) (offset : Nat) : List UInt8 :=
  directoryMark ++ littleBytes 2 20 ++ commonFields s ++ littleBytes 2 0 ++ littleBytes 2 0 ++
    littleBytes 2 0 ++ littleBytes 2 0 ++ littleBytes 4 0 ++ littleBytes 4 offset ++ s.name.toUTF8.toList

def directoryFrom (offset : Nat) : List Source → List UInt8
  | [] => []
  | s :: ss => directoryRecord s offset ++ directoryFrom (offset + (localRecord s).length) ss

def encode (sources : List Source) : List UInt8 :=
  let body := sources.flatMap localRecord
  let directory := directoryFrom 0 sources
  body ++ directory ++ endMark ++ littleBytes 2 0 ++ littleBytes 2 0 ++ littleBytes 2 sources.length ++
    littleBytes 2 sources.length ++ littleBytes 4 directory.length ++ littleBytes 4 body.length ++
    littleBytes 2 0

structure Item where
  name : String
  method : Nat
  check : Nat
  size : Nat
  offset : Nat
deriving DecidableEq, Repr, Inhabited

structure Archive where
  bytes : List UInt8
  items : List Item
deriving Repr, Inhabited

def field (bs : List UInt8) (start width : Nat) : Nat :=
  littleNumber ((bs.drop start).take width)

def oldCharacters : List Char :=
  ("ÇüéâäàåçêëèïîìÄÅÉæÆôöòûùÿÖÜ¢£¥₧ƒáíóúñÑªº¿⌐¬½¼¡«»░▒▓│┤╡╢╖╕╣║╗╝╜╛┐└┴┬├─┼╞╟╚╔╩╦╠═╬╧╨╤╥╙╘╒╓╫╪┘┌█▄▌▐▀" ++
    "αßΓπΣσµτΦΘΩδ∞φε∩≡±≥≤⌠⌡÷≈°∙·√ⁿ²■ ").toList

def oldCharacter (b : UInt8) : Char :=
  if b < 128 then Char.ofNat b.toNat else oldCharacters.getD (b.toNat - 128) ' '

def itemName (flags : Nat) (bs : List UInt8) : Option String :=
  let raw :=
    if flags / utf8Flag % 2 = 1 then String.fromUTF8? ⟨bs.toArray⟩
    else some (String.ofList (bs.map oldCharacter))
  raw.map fun s => String.ofList (s.toList.takeWhile (· ≠ Char.ofNat 0))

def readItems : Nat → List UInt8 → Option (List Item)
  | 0, _ => some []
  | _, [] => some []
  | fuel + 1, bs =>
    if directoryMark.isPrefixOf bs && 46 ≤ bs.length then do
      let nameLength := field bs 28 2
      let name ← itemName (field bs 8 2) ((bs.drop 46).take nameLength)
      let item : Item :=
        { name, method := field bs 10 2, check := field bs 16 4, size := field bs 20 4
          offset := field bs 42 4 }
      let items ← readItems fuel (bs.drop (46 + nameLength + field bs 30 2 + field bs 32 2))
      some (item :: items)
    else none

/-- Whether bytes are an end record and a comment: 22 bytes, and at most 65535 behind them. -/
def isEnd (bs : List UInt8) : Bool :=
  endMark.isPrefixOf bs && 22 ≤ bs.length && bs.length ≤ 22 + 65535

/-- The bytes from the last end record on, and how many stand before it; `found` is what was met
so far. -/
def findEnd (found : Option (Nat × List UInt8)) (before : Nat) :
    List UInt8 → Option (Nat × List UInt8)
  | [] => found
  | b :: bs => findEnd (if isEnd (b :: bs) then some (before, b :: bs) else found) (before + 1) bs

def Archive.ofBytes? (bytes : List UInt8) : Option Archive := do
  let (before, last) ← findEnd none 0 bytes
  let size := field last 12 4
  if before < size then none
  let directory := (bytes.drop (before - size)).take size
  let items ← readItems bytes.length directory
  some { bytes, items }

def Archive.names (a : Archive) : List String := a.items.map Item.name

inductive Damage where
  | contradictory
  | unreadable
deriving DecidableEq, Repr, Inhabited

def Archive.extract (a : Archive) (name : String) : Except Damage (List UInt8) :=
  match a.items.reverse.find? fun i => i.name = name with
  | none => throw .unreadable
  | some i =>
    let record := a.bytes.drop i.offset
    if !localMark.isPrefixOf record then throw .contradictory
    else if i.method ≠ 0 then throw .unreadable
    else
      let content := (record.drop (30 + field record 26 2 + field record 28 2)).take i.size
      if (checksum content).toNat = i.check then pure content else throw .contradictory

end AssetCatalog.Wheel
