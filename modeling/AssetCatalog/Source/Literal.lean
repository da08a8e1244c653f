import AssetCatalog.Source.Token

/-! What text literals denote: escapes, and the parts of texts with replacement fields. -/

namespace AssetCatalog.Source

namespace Quote

def hexOf? (ds : List Char) : Option Nat :=
  ds.foldlM (fun n d => ((Number.digitIn 16 d).filter fun _ => d.toNat < 128).map (n * 16 + ·)) 0

def simpleEscape? (c : Char) : Option Char :=
  match c with
  | '\\' => some '\\'
  | '\'' => some '\''
  | '"' => some '"'
  | 'a' => some '\x07'
  | 'b' => some '\x08'
  | 'f' => some '\x0c'
  | 'n' => some '\n'
  | 'r' => some '\r'
  | 't' => some '\t'
  | 'v' => some '\x0b'
  | _ => none

def isOctal (c : Char) : Bool := '0' ≤ c && c ≤ '7'

def octalValue (ds : List Char) : Nat := ds.foldl (fun n d => n * 8 + (d.toNat - 48)) 0

/-- The characters that a literal with escapes denotes. A backslash in front of a character that
makes no escape stands for itself; escapes of four and eight digits exist in texts only. -/
def unescape (bytes : Bool) : Nat → List Char → Option (List Char)
  | 0, _ => none
  | _, [] => some []
  | fuel + 1, '\\' :: cs =>
    let digits (n : Nat) (rest : List Char) : Option (List Char) := do
      let ds := rest.take n
      if ds.length < n then none
      else
        let v ← hexOf? ds
        if 0x110000 ≤ v then none
        else
          let more ← unescape bytes fuel (rest.drop n)
          some (Char.ofNat v :: more)
    match cs with
    | [] => if bytes then none else some ['\\']
    | '\n' :: rest => unescape bytes fuel rest
    | c :: rest =>
      match simpleEscape? c with
      | some d => (unescape bytes fuel rest).map (d :: ·)
      | none =>
        if isOctal c then
          let ds := (cs.take 3).takeWhile isOctal
          let v := octalValue ds
          (unescape bytes fuel (cs.drop ds.length)).map
            (Char.ofNat (if bytes then v % 256 else v) :: ·)
        else if c = 'x' then digits 2 rest
        else if !bytes && c = 'u' then digits 4 rest
        else if !bytes && c = 'U' then digits 8 rest
        else if !bytes && c = 'N' then none
        else (unescape bytes fuel rest).map ('\\' :: c :: ·)
  | fuel + 1, c :: cs => (unescape bytes fuel cs).map (c :: ·)

def chars? (q : Quote) (piece : List Char) : Option (List Char) :=
  if q.raw then some piece else unescape q.bytes (piece.length + 1) piece

def bytes? (q : Quote) : Option (List UInt8) := do
  if q.body.any (128 ≤ ·.toNat) then none
  else
    let cs ← q.chars? q.body
    some (cs.map fun c => c.toNat.toUInt8)

inductive Piece where
  | text (s : List Char)
  | field (expression : List Char) (shown : Option (List Char)) (conversion : Option Char)
      (format : Option (List Piece))

/-- Splits off the plain characters in front of a field. Doubled braces stand for one of them, except
within a format, where a closing brace ends the text. Gives the characters and the rest. -/
def plainPart (raw inFormat : Bool) : Nat → List Char → List Char → Option (List Char × List Char)
  | 0, _, _ => none
  | _, acc, [] => some (acc.reverse, [])
  | fuel + 1, acc, '\\' :: c :: cs =>
    if raw then plainPart raw inFormat fuel ('\\' :: acc) (c :: cs)
    else if c = '\x7b' || c = '\x7d' then plainPart raw inFormat fuel ('\\' :: acc) (c :: cs)
    else plainPart raw inFormat fuel (c :: '\\' :: acc) cs
  | fuel + 1, acc, c :: cs =>
    if c = '\x7b' || c = '\x7d' then
      if inFormat then some (acc.reverse, c :: cs)
      else if cs.head? = some c then plainPart raw inFormat fuel (c :: acc) cs.tail
      else if c = '\x7d' then none
      else some (acc.reverse, c :: cs)
    else plainPart raw inFormat fuel (c :: acc) cs

structure FieldScan where
  quote : Option (Char × Bool) := none
  brackets : List Char := []

/-- Splits off the expression of a field: it ends at `!`, `:`, `=` or a closing brace outside of
quotes and brackets. -/
def fieldExpression (s : FieldScan) : Nat → List Char → List Char → Option (List Char × List Char)
  | 0, _, _ => none
  | _, _, [] => none
  | fuel + 1, acc, c :: cs =>
    if c = '\\' then none
    else
      match s.quote with
      | some (q, long) =>
        if c = q then
          if long then
            if [q, q].isPrefixOf cs then
              fieldExpression { s with quote := none } fuel (q :: q :: q :: acc) (cs.drop 2)
            else fieldExpression s fuel (c :: acc) cs
          else fieldExpression { s with quote := none } fuel (c :: acc) cs
        else fieldExpression s fuel (c :: acc) cs
      | none =>
        if c = '\'' || c = '"' then
          if [c, c].isPrefixOf cs then
            fieldExpression { s with quote := some (c, true) } fuel (c :: c :: c :: acc) (cs.drop 2)
          else fieldExpression { s with quote := some (c, false) } fuel (c :: acc) cs
        else if c = '[' || c = '(' || c = '\x7b' then
          if 200 ≤ s.brackets.length then none
          else fieldExpression { s with brackets := c :: s.brackets } fuel (c :: acc) cs
        else if c = '#' then none
        else if s.brackets.isEmpty && (c = '!' || c = ':' || c = '\x7d' || c = '=' || c = '<' ||
            c = '>') then
          if (c = '!' || c = '=' || c = '<' || c = '>') && cs.head? = some '=' then
            fieldExpression s fuel ('=' :: c :: acc) cs.tail
          else if c = '<' || c = '>' then fieldExpression s fuel (c :: acc) cs
          else some (acc.reverse, c :: cs)
        else if c = ']' || c = ')' || c = '\x7d' then
          match s.brackets with
          | b :: outer =>
            if (b = '(' && c = ')') || (b = '[' && c = ']') || (b = '\x7b' && c = '\x7d') then
              fieldExpression { s with brackets := outer } fuel (c :: acc) cs
            else none
          | [] => none
        else fieldExpression s fuel (c :: acc) cs

def isFieldBlank (c : Char) : Bool :=
  c = ' ' || c = '\t' || c = '\n' || c = '\x0c' || c = '\r'

def isAsciiBlank (c : Char) : Bool := isFieldBlank c || c = '\x0b'

/-- The pieces of a text with fields. Formats of fields have pieces of their own, to a depth of two;
`inFormat` tells that the pieces end at a closing brace. -/
def pieces (raw : Bool) (depth : Nat) (inFormat : Bool) :
    Nat → List Char → Option (List Piece × List Char)
  | 0, _ => none
  | fuel + 1, cs => do
    let (plain, rest) ← plainPart raw inFormat (cs.length + 1) [] cs
    let text ← if raw then some plain else unescape false (plain.length + 1) plain
    let front := if text.isEmpty then [] else [Piece.text text]
    match rest with
    | [] => some (front, [])
    | '\x7b' :: inner =>
      if depth = 0 then none
      else
        let (source, after) ← fieldExpression {} (inner.length + 1) [] inner
        if source.all isFieldBlank then none
        else
          let (shown, after) := match after with
            | '=' :: more =>
              let blanks := more.takeWhile isAsciiBlank
              (some (source ++ '=' :: blanks), more.drop blanks.length)
            | _ => (none, after)
          let (conversion, after) ← match after with
            | '!' :: c :: more =>
              if c = 's' || c = 'r' || c = 'a' then some (some c, more) else none
            | '!' :: [] => none
            | _ => some (none, after)
          let (format, after) ← match after with
            | ':' :: more =>
              match more with
              | [] => none
              | _ =>
                (pieces raw (depth - 1) true fuel more).map fun (ps, more) => (some ps, more)
            | _ => some (none, after)
          match after with
          | '\x7d' :: more =>
            let conversion := if shown.isSome && format.isNone && conversion.isNone then some 'r'
              else conversion
            let (ps, more) ← pieces raw depth inFormat fuel more
            some (front ++ Piece.field source shown conversion format :: ps, more)
          | _ => none
    | rest => some (front, rest)

end Quote

end AssetCatalog.Source
