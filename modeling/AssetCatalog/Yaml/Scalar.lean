import AssetCatalog.Yaml.Cursor

/-! The texts of YAML scalars: block scalars after `|` and `>`, quoted scalars, and plain ones. -/

namespace AssetCatalog.Yaml

variable (k : Cursor)

abbrev Scanned := Except Fault (List Char × Cursor)

/-! ### Block scalars -/

inductive Chomping where
  | clip
  | strip
  | keep
deriving DecidableEq

def chompingOf (c : Char) : Option Chomping :=
  if c = '+' then some .keep else if c = '-' then some .strip else none

def blockHeader : Except Fault (Chomping × Option Nat × Cursor) := do
  let digit? (k : Cursor) : Except Fault (Option Nat × Cursor) :=
    if k.peek.isDigit then
      if k.peek = '0' then throw .yaml else pure (some (k.peek.toNat - 48), k.next)
    else pure (none, k)
  let (chomping, increment, k) ←
    match chompingOf k.peek with
    | some ch => do
      let (n, k) ← digit? k.next
      pure (ch, n, k)
    | none => do
      let (n, k) ← digit? k
      match n, chompingOf k.peek with
      | some _, some ch => pure (ch, n, k.next)
      | _, _ => pure (Chomping.clip, n, k)
  if k.peek = ' ' || isBreakOrEnd k.peek then pure (chomping, increment, k) else throw .yaml

def restOfLine : Except Fault Cursor :=
  let k := k.skip (· = ' ')
  let k := if k.peek = '#' then k.skip (fun c => !isBreakOrEnd c) else k
  if isBreakOrEnd k.peek then pure k.lineBreak.2 else throw .yaml

def leadingLines : Nat → Cursor → List Char → Nat → List Char × Nat × Cursor
  | 0, k, breaks, deepest => (breaks, deepest, k)
  | fuel + 1, k, breaks, deepest =>
    if k.peek = ' ' then leadingLines fuel k.next breaks (max deepest k.next.column)
    else if isBreak k.peek then
      let (b, k') := k.lineBreak
      leadingLines fuel k' (breaks ++ b) deepest
    else (breaks, deepest, k)

def indentTo (indent : Nat) (k : Cursor) : Cursor :=
  k.forward ((k.rest.takeWhile (· = ' ')).length.min (indent - k.column))

def emptyLines (indent : Nat) : Nat → Cursor → List Char → List Char × Cursor
  | 0, k, breaks => (breaks, k)
  | fuel + 1, k, breaks =>
    if isBreak k.peek then
      let (b, k') := k.lineBreak
      emptyLines indent fuel (indentTo indent k') (breaks ++ b)
    else (breaks, k)

def blockLines (folded : Bool) (indent : Nat) (chomping : Chomping) :
    Nat → Cursor → List Char → List Char → List Char → List Char × Cursor
  | 0, k, acc, _, _ => (acc, k)
  | fuel + 1, k, acc, breaks, lastBreak =>
    let finish (acc breaks lastBreak : List Char) (k : Cursor) : List Char × Cursor :=
      match chomping with
      | .strip => (acc, k)
      | .clip => (acc ++ lastBreak, k)
      | .keep => (acc ++ lastBreak ++ breaks, k)
    if k.column = indent && k.peek ≠ endMark then
      let flush := k.peek ≠ ' ' && k.peek ≠ '\t'
      let (line, k) := k.span (fun c => !isBreakOrEnd c)
      let acc := acc ++ breaks ++ line
      let (lineBreak, k) := k.lineBreak
      let (breaks, k) := emptyLines indent (k.rest.length + 1) (indentTo indent k) []
      if k.column = indent && k.peek ≠ endMark then
        if folded && lineBreak = ['\n'] && flush && k.peek ≠ ' ' && k.peek ≠ '\t' then
          blockLines folded indent chomping fuel k (if breaks.isEmpty then acc ++ [' '] else acc)
            breaks lineBreak
        else blockLines folded indent chomping fuel k (acc ++ lineBreak) breaks lineBreak
      else finish acc breaks lineBreak k
    else finish acc breaks lastBreak k

def blockScalar (folded : Bool) (outer : Int) (k : Cursor) : Scanned := do
  let (chomping, increment, k) ← blockHeader k.next
  let k ← restOfLine k
  let least := (max (outer + 1) 1).toNat
  match increment with
  | none =>
    let (breaks, deepest, k) := leadingLines (k.rest.length + 1) k [] 0
    pure (blockLines folded (max least deepest) chomping (k.rest.length + 1) k [] breaks [])
  | some n =>
    let indent := least + n - 1
    let (breaks, k) := emptyLines indent (k.rest.length + 1) (indentTo indent k) []
    pure (blockLines folded indent chomping (k.rest.length + 1) k [] breaks [])

/-! ### Quoted scalars -/

def escapeOf? (c : Char) : Option Char :=
  match c with
  | '0' => some (Char.ofNat 0)
  | 'a' => some (Char.ofNat 7)
  | 'b' => some (Char.ofNat 8)
  | 't' => some '\t'
  | '\t' => some '\t'
  | 'n' => some '\n'
  | 'v' => some (Char.ofNat 11)
  | 'f' => some (Char.ofNat 12)
  | 'r' => some '\r'
  | 'e' => some (Char.ofNat 27)
  | ' ' => some ' '
  | '"' => some '"'
  | '\\' => some '\\'
  | '/' => some '/'
  | 'N' => some (Char.ofNat 0x85)
  | '_' => some (Char.ofNat 0xa0)
  | 'L' => some (Char.ofNat 0x2028)
  | 'P' => some (Char.ofNat 0x2029)
  | _ => none

def hexDigit? (c : Char) : Option Nat :=
  if c.isDigit then some (c.toNat - 48)
  else if 'a' ≤ c && c ≤ 'f' then some (c.toNat - 87)
  else if 'A' ≤ c && c ≤ 'F' then some (c.toNat - 55)
  else none

def hexNumber? (n : Nat) (cs : List Char) : Option Nat :=
  let ds := cs.take n
  if ds.length = n then ds.foldlM (fun acc c => (hexDigit? c).map (acc * 16 + ·)) 0 else none

def codePoint (n : Nat) : Except Fault Char :=
  if 0x7fffffff < n then throw .tooLarge
  else if 0x10ffff < n then throw (.invalid "chr() arg not in range(0x110000)")
  else if 0xd800 ≤ n && n ≤ 0xdfff then pure '�'
  else pure (Char.ofNat n)

def quotedBreaks : Nat → Cursor → List Char → Scanned
  | 0, k, acc => pure (acc, k)
  | fuel + 1, k, acc =>
    if k.atSeparator then throw .yaml
    else
      let k := k.skip (fun c => c = ' ' || c = '\t')
      if isBreak k.peek then
        let (b, k) := k.lineBreak
        quotedBreaks fuel k (acc ++ b)
      else pure (acc, k)

def quotedSpaces : Scanned := do
  let (blanks, k) := k.span (fun c => c = ' ' || c = '\t')
  if k.peek = endMark then throw .yaml
  else if isBreak k.peek then
    let (b, k) := k.lineBreak
    let (breaks, k) ← quotedBreaks (k.rest.length + 1) k []
    if b ≠ ['\n'] then pure (b ++ breaks, k)
    else if breaks.isEmpty then pure ([' '], k)
    else pure (breaks, k)
  else pure (blanks, k)

def quotedWord (double : Bool) : Nat → Cursor → List Char → Scanned
  | 0, _, _ => throw .yaml
  | fuel + 1, k, acc => do
    let (run, k) := k.span fun c =>
      !(c = '\'' || c = '"' || c = '\\' || isSpaceOrEnd c)
    let acc := acc ++ run
    let c := k.peek
    if !double && c = '\'' && k.peekAt 1 = '\'' then
      quotedWord double fuel (k.forward 2) (acc ++ ['\''])
    else if (double && c = '\'') || (!double && (c = '"' || c = '\\')) then
      quotedWord double fuel k.next (acc ++ [c])
    else if double && c = '\\' then
      let k := k.next
      let e := k.peek
      match (if k.rest.isEmpty then none else escapeOf? e) with
      | some ch => quotedWord double fuel k.next (acc ++ [ch])
      | none =>
        let width := if e = 'x' then 2 else if e = 'u' then 4 else if e = 'U' then 8 else 0
        if 0 < width then
          match hexNumber? width k.next.rest with
          | none => throw .yaml
          | some n => do
            let ch ← codePoint n
            quotedWord double fuel (k.next.forward width) (acc ++ [ch])
        else if isBreak e then
          let (breaks, k) ← quotedBreaks (k.rest.length + 1) k.lineBreak.2 []
          quotedWord double fuel k (acc ++ breaks)
        else throw .yaml
    else pure (acc, k)

def quotedRest (double : Bool) (quote : Char) : Nat → Cursor → List Char → Scanned
  | 0, _, _ => throw .yaml
  | fuel + 1, k, acc => do
    if k.peek = quote then pure (acc, k.next)
    else
      let (spaces, k) ← quotedSpaces k
      let (word, k) ← quotedWord double (k.rest.length + 1) k []
      quotedRest double quote fuel k (acc ++ spaces ++ word)

def quotedScalar (double : Bool) (k : Cursor) : Scanned := do
  let quote := k.peek
  let k := k.next
  let (word, k) ← quotedWord double (k.rest.length + 1) k []
  quotedRest double quote (k.rest.length + 1) k word

/-! ### Plain scalars -/

structure PlainScalar where
  text : List Char
  after : Cursor
  onNewLine : Bool

def plainLength (inFlow : Bool) : List Char → Nat
  | [] => 0
  | c :: cs =>
    let next := cs.headD endMark
    if isSpaceOrEnd c ||
        (c = ':' && (isSpaceOrEnd next ||
          (inFlow && (next = ',' || next = '[' || next = ']' || next = '\x7b' || next = '\x7d')))) ||
        (inFlow && (c = ',' || c = '?' || c = '[' || c = ']' || c = '\x7b' || c = '\x7d')) then 0
    else plainLength inFlow cs + 1

def plainBreaks : Nat → Cursor → List Char → Option (List Char) × Cursor
  | 0, k, acc => (some acc, k)
  | fuel + 1, k, acc =>
    if k.peek = ' ' then plainBreaks fuel k.next acc
    else if isBreak k.peek then
      let (b, k) := k.lineBreak
      if k.atSeparator then (none, k) else plainBreaks fuel k (acc ++ b)
    else (some acc, k)

/-- White space inside a plain scalar; empty where the scalar ends. The flag says that a line was
left. -/
def plainSpaces : List Char × Cursor × Bool :=
  let (blanks, k) := k.span (· = ' ')
  if isBreak k.peek then
    let (b, k) := k.lineBreak
    if k.atSeparator then ([], k, true)
    else
      match plainBreaks (k.rest.length + 1) k [] with
      | (none, k) => ([], k, true)
      | (some breaks, k) =>
        if b ≠ ['\n'] then (b ++ breaks, k, true)
        else if breaks.isEmpty then ([' '], k, true)
        else (breaks, k, true)
  else (blanks, k, false)

def plainScalar (inFlow : Bool) (indent : Int) :
    Nat → Cursor → List Char → List Char → Bool → PlainScalar
  | 0, k, acc, _, flag => ⟨acc, k, flag⟩
  | fuel + 1, k, acc, spaces, flag =>
    if k.peek = '#' then ⟨acc, k, flag⟩
    else
      let n := plainLength inFlow k.rest
      if n = 0 then ⟨acc, k, flag⟩
      else
        let acc := acc ++ spaces ++ k.rest.take n
        let (spaces, k, left) := plainSpaces (k.forward n)
        if spaces.isEmpty || k.peek = '#' || (!inFlow && (k.column : Int) < indent) then
          ⟨acc, k, left⟩
        else plainScalar inFlow indent fuel k acc spaces left

end AssetCatalog.Yaml
