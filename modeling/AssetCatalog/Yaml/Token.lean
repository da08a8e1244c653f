import AssetCatalog.Yaml.Scalar

/-! The tokens of a YAML text. Indentation opens and closes blocks, and a key that turns out to be one
only at its colon gets its marks put in front of it afterwards. -/

namespace AssetCatalog.Yaml

structure TagName where
  handle : Option String
  rest : String
deriving DecidableEq, Repr

inductive Directive where
  | version (major minor : Nat)
  | tagHandle (handle expansion : String)
  | other
deriving DecidableEq, Repr

inductive Token where
  | directive (d : Directive)
  | documentStart
  | documentEnd
  | streamEnd
  | blockSequenceStart
  | blockMappingStart
  | blockEnd
  | flowSequenceStart
  | flowSequenceEnd
  | flowMappingStart
  | flowMappingEnd
  | flowEntry
  | blockEntry
  | key
  | value
  | reference (name : String)
  | anchor (name : String)
  | tag (t : TagName)
  | scalar (text : String) (isPlain : Bool)
  | unreadable (fault : Fault)
deriving DecidableEq, Repr

namespace Token

structure PossibleKey where
  level : Nat
  number : Nat
  required : Bool
  index : Nat
  line : Nat
  column : Nat

structure Lexer where
  place : Cursor
  tokens : Array Token := #[]
  flow : Nat := 0
  indent : Int := -1
  indents : List Int := []
  keyAllowed : Bool := true
  keys : List PossibleKey := []

namespace Lexer

variable (s : Lexer) (k : Cursor)

def push (t : Token) (s : Lexer) : Lexer := { s with tokens := s.tokens.push t }

/-- Forgets keys that can no longer be keys: a key stands on one line of at most 1024 characters. -/
def dropStale : Except Fault Lexer :=
  let stale (k : PossibleKey) : Bool := k.line ≠ s.place.line || 1024 < s.place.index - k.index
  if s.keys.any fun k => stale k && k.required then throw .yaml
  else pure { s with keys := s.keys.filter fun k => !stale k }

def dropKey : Except Fault Lexer :=
  if s.keys.any fun k => k.level = s.flow && k.required then throw .yaml
  else pure { s with keys := s.keys.filter fun k => k.level ≠ s.flow }

def noteKey : Except Fault Lexer := do
  let required := s.flow = 0 && s.indent = s.place.column
  if s.keyAllowed then
    let s ← s.dropKey
    pure { s with keys := s.keys ++
      [⟨s.flow, s.tokens.size, required, s.place.index, s.place.line, s.place.column⟩] }
  else pure s

def unwind (column : Int) (s : Lexer) : Lexer :=
  if s.flow ≠ 0 then s
  else
    let rec close : List Int → Int → Nat → List Int × Int × Nat
      | outer :: rest, indent, n =>
        if column < indent then close rest outer (n + 1) else (outer :: rest, indent, n)
      | [], indent, n => ([], indent, n)
    let (indents, indent, n) := close s.indents s.indent 0
    { s with indents, indent, tokens := s.tokens ++ Array.replicate n Token.blockEnd }

def deepen (column : Int) (s : Lexer) : Bool × Lexer :=
  if s.indent < column then (true, { s with indents := s.indent :: s.indents, indent := column })
  else (false, s)

def skipToToken : Nat → Lexer → Lexer
  | 0, s => s
  | fuel + 1, s =>
    let k := s.place.skip (· = ' ')
    let k := if k.peek = '#' then k.skip (fun c => !isBreakOrEnd c) else k
    if isBreak k.peek then
      skipToToken fuel
        { s with place := k.lineBreak.2, keyAllowed := s.keyAllowed || s.flow = 0 }
    else { s with place := k }

def isNamePart (c : Char) : Bool := c.isAlphanum || c = '-' || c = '_'

def uriEscapes : Nat → Cursor → List UInt8 → Except Fault (List UInt8 × Cursor)
  | 0, k, acc => pure (acc, k)
  | fuel + 1, k, acc =>
    if k.peek = '%' then
      match hexNumber? 2 k.next.rest with
      | some n => uriEscapes fuel (k.forward 3) (acc ++ [n.toUInt8])
      | none => throw .yaml
    else pure (acc, k)

def isUriPart (c : Char) : Bool :=
  c.isAlphanum || "-;/?:@&=+$,_.!~*'()[]".toList.contains c

def uriParts : Nat → Cursor → List Char → Scanned
  | 0, k, acc => pure (acc, k)
  | fuel + 1, k, acc => do
    if isUriPart k.peek then
      let (run, k) := k.span isUriPart
      uriParts fuel k (acc ++ run)
    else if k.peek = '%' then
      let (bytes, k) ← uriEscapes (k.rest.length + 1) k []
      match String.fromUTF8? (ByteArray.mk bytes.toArray) with
      | some s => uriParts fuel k (acc ++ s.toList)
      | none => throw .yaml
    else pure (acc, k)

def uri : Except Fault (String × Cursor) := do
  let (cs, after) ← uriParts (k.rest.length + 1) k []
  if after.index = k.index then throw .yaml else pure (String.ofList cs, after)

def tagHandle : Except Fault (String × Cursor) :=
  if k.peek ≠ '!' then throw .yaml
  else if k.peekAt 1 = ' ' then pure ("!", k.next)
  else
    let name := (k.rest.drop 1).takeWhile isNamePart
    if k.peekAt (name.length + 1) = '!' then
      pure (String.ofList ('!' :: name ++ ['!']), k.forward (name.length + 2))
    else throw .yaml

def tagAt : Except Fault (TagName × Cursor) := do
  let c := k.peekAt 1
  let (t, k) ←
    if c = '<' then do
      let (rest, k) ← uri (k.forward 2)
      if k.peek = '>' then pure (TagName.mk none rest, k.next) else throw .yaml
    else if isSpaceOrEnd c then pure (TagName.mk none "!", k.next)
    else do
      let ahead := (k.rest.drop 1).takeWhile fun c => !(c = ' ' || isBreakOrEnd c)
      let (handle, k) ← if ahead.contains '!' then tagHandle k else pure ("!", k.next)
      let (rest, k) ← uri k
      pure (TagName.mk (some handle) rest, k)
  if k.peek = ' ' || isBreakOrEnd k.peek then pure (t, k) else throw .yaml

def directiveNumber : Except Fault (Nat × Cursor) :=
  let (ds, k') := k.span Char.isDigit
  if ds.isEmpty then throw .yaml
  else pure (ds.foldl (fun n c => n * 10 + (c.toNat - 48)) 0, k')

def directiveAt : Except Fault (Directive × Cursor) := do
  let (name, k) := k.next.span isNamePart
  if name.isEmpty || !(k.peek = ' ' || isBreakOrEnd k.peek) then throw .yaml
  let (d, k) ←
    if name = "YAML".toList then do
      let (major, k) ← directiveNumber (k.skip (· = ' '))
      if k.peek ≠ '.' then throw .yaml
      let (minor, k) ← directiveNumber k.next
      if k.peek = ' ' || isBreakOrEnd k.peek then pure (Directive.version major minor, k)
      else throw .yaml
    else if name = "TAG".toList then do
      let (handle, k) ← tagHandle (k.skip (· = ' '))
      if k.peek ≠ ' ' then throw .yaml
      let (expansion, k) ← uri (k.skip (· = ' '))
      if k.peek = ' ' || isBreakOrEnd k.peek then pure (Directive.tagHandle handle expansion, k)
      else throw .yaml
    else pure (Directive.other, k.skip (fun c => !isBreakOrEnd c))
  let k ← restOfLine k
  pure (d, k)

def anchorName : Except Fault (String × Cursor) :=
  let (name, k) := k.next.span isNamePart
  let c := k.peek
  if name.isEmpty || !(isSpaceOrEnd c || "?:,]\x7d%@`".toList.contains c) then throw .yaml
  else pure (String.ofList name, k)

def closeAll : Except Fault Lexer := do
  let s ← (s.unwind (-1)).dropKey
  pure { s with keyAllowed := false }

def openFlow (t : Token) (s : Lexer) : Except Fault Lexer := do
  let s ← s.noteKey
  pure ({ s with flow := s.flow + 1, keyAllowed := true, place := s.place.next }.push t)

def closeFlow (t : Token) (s : Lexer) : Except Fault Lexer := do
  let s ← s.dropKey
  pure ({ s with flow := s.flow - 1, keyAllowed := false, place := s.place.next }.push t)

/-- A `-` or `?` that opens an entry or a key of a block, or stands in a flow collection. -/
def indicator (opening t : Token) (keyAllowed : Bool) (s : Lexer) : Except Fault Lexer := do
  let s ←
    if s.flow = 0 then do
      if !s.keyAllowed then throw .yaml
      let (opened, s) := s.deepen s.place.column
      pure (if opened then s.push opening else s)
    else pure s
  let s ← { s with keyAllowed }.dropKey
  pure ({ s with place := s.place.next }.push t)

def colon : Except Fault Lexer := do
  match s.keys.find? fun k => k.level = s.flow with
  | some k =>
    let s := { s with keys := s.keys.filter fun k => k.level ≠ s.flow, keyAllowed := false }
    let (opened, s) := if s.flow = 0 then s.deepen k.column else (false, s)
    let marks := if opened then #[Token.blockMappingStart, Token.key] else #[Token.key]
    let tokens := s.tokens.extract 0 k.number ++ marks ++ s.tokens.extract k.number s.tokens.size
    pure ({ s with tokens, place := s.place.next }.push .value)
  | none =>
    let s ←
      if s.flow = 0 then do
        if !s.keyAllowed then throw .yaml
        let (opened, s) := s.deepen s.place.column
        pure (if opened then s.push .blockMappingStart else s)
      else pure s
    let s ← { s with keyAllowed := s.flow = 0 }.dropKey
    pure ({ s with place := s.place.next }.push .value)

def keyLike (read : Cursor → Except Fault (Token × Cursor)) (s : Lexer) :
    Except Fault Lexer := do
  let s ← s.noteKey
  let (t, k) ← read s.place
  pure ({ s with keyAllowed := false, place := k }.push t)

def startsPlain (inFlow : Bool) (c next : Char) : Bool :=
  !(isSpaceOrEnd c || "-?:,[]\x7b\x7d#&*!|>'\"%@`".toList.contains c) ||
    (!isSpaceOrEnd next && (c = '-' || (!inFlow && (c = '?' || c = ':'))))

def plain : Except Fault Lexer := do
  let s ← s.noteKey
  let p := plainScalar (s.flow ≠ 0) (s.indent + 1) (s.place.rest.length + 1) s.place [] [] false
  pure ({ s with keyAllowed := p.onNewLine, place := p.after }.push
    (.scalar (String.ofList p.text) true))

def readToken : Except Fault (Bool × Lexer) :=
  let k := s.place
  let c := k.peek
  let next := k.peekAt 1
  let more (r : Except Fault Lexer) : Except Fault (Bool × Lexer) := r.map (false, ·)
  if k.rest.isEmpty then do
    let s ← s.closeAll
    pure (true, s.push .streamEnd)
  else if c = '%' && k.column = 0 then more do
    let s ← s.closeAll
    let (d, k) ← directiveAt s.place
    pure ({ s with place := k }.push (.directive d))
  else if (c = '-' || c = '.') && k.column = 0 && k.atSeparator then more do
    let s ← s.closeAll
    pure ({ s with place := s.place.forward 3 }.push (if c = '-' then .documentStart else .documentEnd))
  else if c = '[' then more (s.openFlow .flowSequenceStart)
  else if c = '\x7b' then more (s.openFlow .flowMappingStart)
  else if c = ']' then more (s.closeFlow .flowSequenceEnd)
  else if c = '\x7d' then more (s.closeFlow .flowMappingEnd)
  else if c = ',' then more do
    let s ← { s with keyAllowed := true }.dropKey
    pure ({ s with place := s.place.next }.push .flowEntry)
  else if c = '-' && isSpaceOrEnd next then more (s.indicator .blockSequenceStart .blockEntry true)
  else if c = '?' && (s.flow ≠ 0 || isSpaceOrEnd next) then
    more (s.indicator .blockMappingStart .key (s.flow = 0))
  else if c = ':' && (s.flow ≠ 0 || isSpaceOrEnd next) then more s.colon
  else if c = '*' then more (s.keyLike fun k => (anchorName k).map fun (n, k) => (.reference n, k))
  else if c = '&' then more (s.keyLike fun k => (anchorName k).map fun (n, k) => (.anchor n, k))
  else if c = '!' then more (s.keyLike fun k => (tagAt k).map fun (t, k) => (.tag t, k))
  else if (c = '|' || c = '>') && s.flow = 0 then more do
    let s ← { s with keyAllowed := true }.dropKey
    let (text, k) ← blockScalar (c = '>') s.indent s.place
    pure ({ s with place := k }.push (.scalar (String.ofList text) false))
  else if c = '\'' || c = '"' then
    more (s.keyLike fun k => (quotedScalar (c = '"') k).map fun (text, k) =>
      (.scalar (String.ofList text) false, k))
  else if startsPlain (s.flow ≠ 0) c next then more s.plain
  else throw .yaml

def fetch : Except Fault (Bool × Lexer) := do
  let s ← (skipToToken (s.place.rest.length + 1) s).dropStale
  (s.unwind s.place.column).readToken

/-- The tokens that a step ends with: those so far where it failed, all of them where the text has
ended, and else those that reading on gives. -/
def tokensAfter (before : Array Token) (readOn : Lexer → Array Token) :
    Except Fault (Bool × Lexer) → Array Token
  | .error e => before.push (.unreadable e)
  | .ok (done, s) => if done then s.tokens else readOn s

def run : Nat → Lexer → Array Token
  | 0, s => s.tokens.push (.unreadable .yaml)
  | fuel + 1, s => tokensAfter s.tokens (run fuel) s.fetch

end Lexer

def ofText (s : String) : List Token :=
  let cs := s.toList
  if cs.all isAllowed then
    let start := Cursor.ofList cs
    let start := if start.peek.toNat = 0xfeff then start.next else start
    (Lexer.run (cs.length + 2) { place := start }).toList
  else [.unreadable .yaml]

end Token

end AssetCatalog.Yaml
