import AssetCatalog.Source.Tree
import AssetCatalog.Number.Reading
import AssetCatalog.Text.Normal

/-! Tokens of Python source. Line ends are `\n`; columns count bytes. -/

namespace AssetCatalog.Source

structure Quote where
  raw : Bool := false
  bytes : Bool := false
  format : Bool := false
  marked : Bool := false
  body : List Char
deriving DecidableEq, Repr, Inhabited

inductive Lexeme where
  | name (s : String)
  | keyword (s : String)
  | number (v : Value)
  | quote (q : Quote)
  | op (s : String)
  | newline
  | indent
  | dedent
deriving Inhabited

structure Token where
  lexeme : Lexeme
  span : Span
deriving Inhabited

def keywords : List String :=
  ["False", "None", "True", "and", "as", "assert", "async", "await", "break", "class", "continue",
    "def", "del", "elif", "else", "except", "finally", "for", "from", "global", "if", "import",
    "in", "is", "lambda", "nonlocal", "not", "or", "pass", "raise", "return", "try", "while",
    "with", "yield"]

def operators : List String :=
  ["**=", "//=", ">>=", "<<=", "...", "==", "!=", "<=", ">=", "->", "+=", "-=", "*=", "/=", "%=",
    "&=", "|=", "^=", "@=", ":=", "**", "//", "<<", ">>", "(", ")", "[", "]", "\x7b", "\x7d", ",",
    ":", ".", ";", "@", "=", "+", "-", "*", "/", "%", "&", "|", "^", "~", "<", ">"]

namespace Token

def advance (p : Position) : List Char → Position
  | [] => p
  | '\n' :: cs => advance ⟨p.line + 1, 0⟩ cs
  | c :: cs => advance ⟨p.line, p.column + c.utf8Size⟩ cs

structure Layout where
  brackets : List Char := []
  /-- Open indentations, the innermost first: columns with tabs to multiples of eight, and with
  tabs as one column. -/
  indents : List (Nat × Nat) := []
  fresh : Bool := true

variable (l : Layout) (cs : List Char) (c : Char)

structure Piece where
  size : Nat
  token : Option Lexeme := none
  blocks : List Lexeme := []
  layout : Layout

def isNamePart : Bool := c.isAlphanum || c = '_' || 128 ≤ c.toNat

def isNameStart : Bool := c.isAlpha || c = '_' || 128 ≤ c.toNat

def isMargin : Bool := c = ' ' || c = '\t' || c = '\x0c' || c = '\\' || c = '\n'

/-- The columns behind the margin of a line, and the number of its characters; a line may be
continued within its margin, and then the first part counts. `last` tells whether the text ends
behind the characters. -/
def indentation (last : Bool) (column narrow first size : Nat) :
    List Char → Except Fault (Nat × Nat × Nat)
  | ' ' :: cs => indentation last (column + 1) (narrow + 1) first (size + 1) cs
  | '\t' :: cs => indentation last ((column / 8 + 1) * 8) (narrow + 1) first (size + 1) cs
  | '\x0c' :: cs => indentation last 0 0 first (size + 1) cs
  | '\\' :: '\n' :: cs =>
    if last && cs.isEmpty then throw .source
    else indentation last column narrow (if first = 0 then column else first) (size + 2) cs
  | '\\' :: _ => throw .source
  | _ => pure (if first = 0 then (column, narrow, size) else (first, first, size))

def comment : Nat := (cs.takeWhile (· ≠ '\n')).length

def closeIndents (column narrow : Nat) :
    List (Nat × Nat) → Except Fault (List (Nat × Nat) × Nat)
  | [] => if column = 0 && narrow = 0 then pure ([], 0) else throw .source
  | (c, n) :: outer =>
    if column < c then do
      let (indents, closed) ← closeIndents column narrow outer
      pure (indents, closed + 1)
    else if column = c && narrow = n then pure ((c, n) :: outer, 0)
    else throw .source

def indentPiece (column narrow size : Nat) : Except Fault Piece := do
  let (c, n) := l.indents.head?.getD (0, 0)
  if c < column then
    if narrow ≤ n || 99 ≤ l.indents.length then throw .source
    else
      let indents := (column, narrow) :: l.indents
      pure { size, blocks := [.indent], layout := { l with indents, fresh := false } }
  else
    let (indents, closed) ← closeIndents column narrow l.indents
    let blocks := List.replicate closed .dedent
    pure { size, blocks, layout := { l with indents, fresh := false } }

def linePiece : Except Fault Piece := do
  let margin := cs.takeWhile isMargin
  let (column, narrow, size) ← indentation (margin.length = cs.length) 0 0 0 0 margin
  match cs.drop size with
  | '\n' :: _ => pure { size := size + 1, layout := l }
  | '#' :: more => pure { size := size + comment ('#' :: more) + 1, layout := l }
  | _ => indentPiece l column narrow size

def isNumberPart : Bool := isNamePart c || c = '.' || c = '+' || c = '-'

/-- The length of a run of digits in which single underscores stand between digits; `none` where an
underscore has no digit behind it. -/
def digitTail (isDigit : Char → Bool) : List Char → Option Nat
  | '_' :: c :: cs => if isDigit c then (digitTail isDigit cs).map (· + 2) else none
  | ['_'] => none
  | c :: cs => if isDigit c then (digitTail isDigit cs).map (· + 1) else some 0
  | [] => some 0

def numberEnds : Bool :=
  match cs with
  | [] => true
  | c :: _ =>
    !isNamePart c || ["and", "else", "for", "if", "in", "is", "or", "not"].any fun w =>
      w.toList.isPrefixOf cs

def isDigitIn (base : Nat) (c : Char) : Bool := c.toNat < 128 && (Number.digitIn base c).isSome

def basedLength (base : Nat) (cs : List Char) : Option Nat :=
  match cs with
  | '_' :: _ => digitTail (isDigitIn base) cs
  | _ => (digitTail (isDigitIn base) ('_' :: cs)).map (· - 1)

def basedNumber (base : Nat) (cs : List Char) : Except Fault (Nat × Value) :=
  match basedLength base cs with
  | none => throw .source
  | some n =>
    if numberEnds (cs.drop n) then
      match Number.int? base ((cs.take n).filter (· ≠ '_')) with
      | some v => pure (n + 2, .int v)
      | none => throw .source
    else throw .source

def wholeLength : List Char → Option Nat
  | c :: cs => if c.isDigit then digitTail Char.isDigit (c :: cs) else some 0
  | [] => some 0

def fractionLength : List Char → Option Nat
  | '.' :: c :: cs =>
    if c.isDigit then (digitTail Char.isDigit (c :: cs)).map (· + 1) else some 1
  | '.' :: [] => some 1
  | _ => some 0

def exponentLength : List Char → Option Nat
  | e :: cs =>
    if e = 'e' || e = 'E' then
      match cs with
      | s :: d :: more =>
        if s = '+' || s = '-' then
          if d.isDigit then (digitTail Char.isDigit (d :: more)).map (· + 2) else none
        else if s.isDigit then (digitTail Char.isDigit cs).map (· + 1) else some 0
      | [s] => if s.isDigit then some 2 else if s = '+' || s = '-' then none else some 0
      | [] => some 0
    else some 0
  | [] => some 0

def plainLength : Option (Nat × Bool) := do
  let whole ← wholeLength cs
  let part ← fractionLength (cs.drop whole)
  let power ← exponentLength (cs.drop (whole + part))
  some (whole + part + power, part = 0 && power = 0)

def endsImaginary : List Char → Bool
  | j :: more => (j = 'j' || j = 'J') && numberEnds more
  | [] => false

/-- The value of digits; a whole number other than zero does not start with zeros. -/
def plainValue (whole : Bool) (digits : List Char) : Option Value :=
  if whole then
    let zeros := digits.takeWhile (· = '0')
    if zeros.isEmpty then (Number.int? 10 digits).map .int
    else if zeros.length < digits.length then none
    else some (.int 0)
  else (Number.float? digits).map .float

def plainNumber : Except Fault (Nat × Value) :=
  match plainLength cs with
  | none => throw .source
  | some (n, whole) =>
    let digits := (cs.take n).filter (· ≠ '_')
    let rest := cs.drop n
    let found :=
      if endsImaginary rest then (Number.float? digits).map fun x => (n + 1, .imaginary x)
      else if numberEnds rest then (plainValue whole digits).map fun v => (n, v)
      else none
    match found with
    | some r => pure r
    | none => throw .source

def number : Except Fault (Nat × Value) :=
  match cs with
  | '0' :: m :: more =>
    if m = 'x' || m = 'X' then basedNumber 16 more
    else if m = 'o' || m = 'O' then basedNumber 8 more
    else if m = 'b' || m = 'B' then basedNumber 2 more
    else plainNumber cs
  | _ => plainNumber cs

def quoteMarks : Nat → Quote → List Char → Option (Quote × Nat)
  | 0, _, _ => none
  | fuel + 1, q, c :: cs =>
    if c = '\'' || c = '"' then some (q, 0)
    else
      let next (q : Quote) : Option (Quote × Nat) :=
        (quoteMarks fuel q cs).map fun (q, n) => (q, n + 1)
      if (c = 'b' || c = 'B') && !(q.bytes || q.format || q.marked) then next { q with bytes := true }
      else if (c = 'u' || c = 'U') && !(q.bytes || q.format || q.marked || q.raw) then
        next { q with marked := true }
      else if (c = 'r' || c = 'R') && !(q.raw || q.marked) then next { q with raw := true }
      else if (c = 'f' || c = 'F') && !(q.bytes || q.format || q.marked) then
        next { q with format := true }
      else none
  | _ + 1, _, [] => none

def quoteBody (quote : Char) (long : Bool) : List Char → Option Nat
  | [] => none
  | '\\' :: _ :: cs => (quoteBody quote long cs).map (· + 2)
  | c :: cs =>
    if c = quote && (!long || [quote, quote].isPrefixOf cs) then some 0
    else if c = '\n' && !long then none
    else if c = '\\' then none
    else (quoteBody quote long cs).map (· + 1)

def quotePiece (q : Quote) (marks : Nat) : Except Fault Piece :=
  match cs.drop marks with
  | c :: more =>
    let long := [c, c].isPrefixOf more
    let size := if long then 3 else 1
    let inner := cs.drop (marks + size)
    match quoteBody c long inner with
    | some n =>
      -- only a small `u` marks the literal
      let marked := q.marked && cs.head? = some 'u'
      let token := Lexeme.quote { q with marked, body := inner.take n }
      pure { size := marks + size + n + size, token, layout := l }
    | none => throw .source
  | [] => throw .source

def closes (opening closing : Char) : Bool :=
  (opening = '(' && closing = ')') || (opening = '[' && closing = ']') ||
    (opening = '\x7b' && closing = '\x7d')

def bracketsAfter (o : String) (brackets : List Char) : Except Fault (List Char) :=
  match o.toList with
  | [c] =>
    if c = '(' || c = '[' || c = '\x7b' then
      if 200 ≤ brackets.length then throw .source else pure (c :: brackets)
    else if c = ')' || c = ']' || c = '\x7d' then
      match brackets with
      | b :: outer => if closes b c then pure outer else throw .source
      | [] => throw .source
    else pure brackets
  | _ => pure brackets

def operatorPiece : Except Fault Piece :=
  match operators.find? fun o => o.toList.isPrefixOf cs with
  | none => throw .source
  | some o => do
    let brackets ← bracketsAfter o l.brackets
    pure { size := o.length, token := Lexeme.op o, layout := { l with brackets } }

def namePiece : Except Fault Piece :=
  let word := cs.takeWhile isNamePart
  let text := String.ofList word
  if keywords.contains text then
    pure { size := word.length, token := Lexeme.keyword text, layout := l }
  else if word.all (·.toNat < 128) || Text.isIdentifier word then
    let token := Lexeme.name (String.ofList (Text.normalForm word))
    pure { size := word.length, token, layout := l }
  else throw .source

def inlinePiece (more : List Char) : Except Fault Piece :=
  let cs := c :: more
  if c = ' ' || c = '\t' || c = '\x0c' then pure { size := 1, layout := l }
  else if c = '#' then pure { size := comment cs, layout := l }
  else if c = '\n' then
    pure (if l.brackets.isEmpty then
      { size := 1, token := Lexeme.newline, layout := { l with fresh := true } }
      else { size := 1, layout := l })
  else if c = '\\' then
    match more with
    | '\n' :: _ :: _ => pure { size := 2, layout := l }
    | _ => throw .source
  else
    match quoteMarks 3 { body := [] } cs with
    | some (q, marks) => quotePiece l cs q marks
    | none =>
      if isNameStart c then namePiece l cs
      else if c.isDigit || (c = '.' && (more.head?.map Char.isDigit).getD false) then do
        let (n, v) ← number (cs.takeWhile isNumberPart)
        pure { size := n, token := Lexeme.number v, layout := l }
      else operatorPiece l cs

def nextPiece : Except Fault Piece :=
  if l.fresh && l.brackets.isEmpty then linePiece l cs
  else
    match cs with
    | [] => pure { size := 0, layout := l }
    | c :: more => inlinePiece l c more

structure Scan where
  rest : List Char
  position : Position
  layout : Layout := {}
  tokens : List Token := []

def Scan.pass (s : Scan) (p : Piece) : Scan :=
  let stop := advance s.position (s.rest.take p.size)
  { rest := s.rest.drop p.size
    position := stop
    layout := p.layout
    tokens := p.blocks.map (⟨·, ⟨stop, stop⟩⟩) ++ p.token.toList.map (⟨·, ⟨s.position, stop⟩⟩) ++
      s.tokens }

def scanAll : Nat → Scan → Except Fault (List Token)
  | 0, _ => throw .source
  | fuel + 1, s =>
    if s.rest.isEmpty then
      if s.layout.brackets.isEmpty then
        let close := s.layout.indents.map fun _ => Token.mk .dedent ⟨s.position, s.position⟩
        pure (s.tokens.reverse ++ close)
      else throw .source
    else do
      let p ← nextPiece s.layout s.rest
      scanAll fuel (s.pass p)

def ofText (text : List Char) : Except Fault (List Token) :=
  if text.contains '\x00' then throw .source
  else
    let text := if text.getLast?.all (· = '\n') then text else text ++ ['\n']
    scanAll (2 * text.length + 2) { rest := text, position := ⟨1, 0⟩ }

end Token

end AssetCatalog.Source
