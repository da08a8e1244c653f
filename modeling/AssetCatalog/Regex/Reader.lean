import AssetCatalog.Regex.Basic
import AssetCatalog.Number.Reading

/-! Reading regular expressions. -/

namespace AssetCatalog.Regex

inductive Symbol where
  | plain (c : Char)
  | escaped (c : Char)
deriving DecidableEq, Repr, Inhabited

def symbols : List Char → Option (List Symbol)
  | [] => some []
  | ['\\'] => none
  | '\\' :: c :: cs => (symbols cs).map (.escaped c :: ·)
  | c :: cs => (symbols cs).map (.plain c :: ·)

structure Reading where
  rest : List Symbol
  options : Options := {}
  /-- The lengths of the groups from the first on; `none` while a group is open. -/
  widths : List (Option (Nat × Option Nat)) := []
  names : List (String × Nat) := []
  behindFrom : Option Nat := none
  tested : List Nat := []

abbrev Read := StateT Reading (Except Fault)

def refuse {α : Type} : Read α := throw .pattern

def peek : Read (Option Symbol) := do
  pure (← get).rest.head?

def take : Read Symbol := do
  let s ← get
  match s.rest with
  | x :: xs => set { s with rest := xs }; pure x
  | [] => refuse

def tryChar (c : Char) : Read Bool := do
  if (← peek) = some (.plain c) then discard take; pure true else pure false

def char (c : Char) : Read Unit := do
  if ← tryChar c then pure () else refuse

def takeWhileUpTo (n : Nat) (p : Char → Bool) : Read (List Char) := do
  let s ← get
  let cs := (s.rest.take n).map fun x => match x with
    | .plain c => some c
    | .escaped _ => none
  let good := (cs.takeWhile fun c => (c.map p).getD false).filterMap id
  set { s with rest := s.rest.drop good.length }
  pure good

def isHex (c : Char) : Bool :=
  c.isDigit || ('a' ≤ c && c ≤ 'f') || ('A' ≤ c && c ≤ 'F')

def isOct (c : Char) : Bool := '0' ≤ c && c ≤ '7'

def numberIn (base : Nat) (ds : List Char) : Nat :=
  ds.foldl (fun n d => n * base + (Number.digitIn base d).getD 0) 0

def codePoint (n : Nat) : Read Char :=
  if n < 0x110000 then pure (Char.ofNat n)
  else if n < 0x80000000 then refuse
  else throw .tooLarge

def hexEscape (n : Nat) : Read Char := do
  let ds ← takeWhileUpTo n isHex
  if ds.length = n then codePoint (numberIn 16 ds) else refuse

def controlEscape? (c : Char) : Option Char :=
  match c with
  | 'a' => some '\x07'
  | 'f' => some '\x0c'
  | 'n' => some '\n'
  | 'r' => some '\r'
  | 't' => some '\t'
  | 'v' => some '\x0b'
  | '\\' => some '\\'
  | _ => none

def category? (c : Char) : Option SetItem :=
  match c with
  | 'd' => some (.category .digit false)
  | 'D' => some (.category .digit true)
  | 's' => some (.category .space false)
  | 'S' => some (.category .space true)
  | 'w' => some (.category .word false)
  | 'W' => some (.category .word true)
  | _ => none

def numericEscape (c : Char) : Option (Read Char) :=
  match c with
  | 'x' => some (hexEscape 2)
  | 'u' => some (hexEscape 4)
  | 'U' => some (hexEscape 8)
  | _ => none

def setEscape (c : Char) : Read SetItem := do
  if c = 'b' then pure (.char '\x08')
  else
    match controlEscape? c, category? c, numericEscape c with
    | some d, _, _ => pure (.char d)
    | _, some item, _ => pure item
    | _, _, some r =>
      let d ← r
      pure (.char d)
    | _, _, _ =>
      if isOct c then
        let ds ← takeWhileUpTo 2 isOct
        let n := numberIn 8 (c :: ds)
        if 255 < n then refuse else pure (.char (Char.ofNat n))
      else if c.isAlphanum then refuse
      else pure (.char c)

def setMember (x : Symbol) : Read SetItem :=
  match x with
  | .plain c => pure (.char c)
  | .escaped c => setEscape c

def setItems : Nat → List SetItem → Read (List SetItem)
  | 0, _ => refuse
  | fuel + 1, acc => do
    let x ← take
    if x = .plain ']' && !acc.isEmpty then pure acc
    else
      let item ← setMember x
      if ← tryChar '-' then
        let y ← take
        if y = .plain ']' then pure (acc ++ [item, .char '-'])
        else
          let last ← setMember y
          match item, last with
          | .char low, .char high =>
            if high < low then refuse else setItems fuel (acc ++ [.range low high])
          | _, _ => refuse
      else setItems fuel (acc ++ [item])

def widthOf (s : Reading) (n : Nat) : Nat × Option Nat :=
  ((s.widths.drop (n - 1)).head?.join).getD (0, some 0)

def isClosed (s : Reading) (n : Nat) : Bool :=
  n = 0 || ((s.widths.drop (n - 1)).head?.join).isSome

def checkBehind (n : Nat) : Read Unit := do
  let s ← get
  match s.behindFrom with
  | none => pure ()
  | some start => if isClosed s n && n ≤ start then pure () else refuse

def referenceTo (options : Options) (n : Nat) : Read Regex := do
  let s ← get
  if n ≤ s.widths.length && n ≠ 0 && isClosed s n then
    checkBehind n
    pure (.reference options n)
  else refuse

def single (options : Options) (c : Char) : Regex := .oneOf options false [.char c]

def escape (options : Options) (c : Char) : Read Regex := do
  let place (p : Place) : Read Regex := pure (.place options p)
  if c = 'A' then place .textStart
  else if c = 'Z' then place .textEnd
  else if c = 'b' then place .boundary
  else if c = 'B' then place .noBoundary
  else
    match controlEscape? c, category? c, numericEscape c with
    | some d, _, _ => pure (single options d)
    | _, some item, _ => pure (.oneOf options false [item])
    | _, _, some r =>
      let d ← r
      pure (single options d)
    | _, _, _ =>
      if c = '0' then
        let ds ← takeWhileUpTo 2 isOct
        pure (single options (Char.ofNat (numberIn 8 ds)))
      else if c.isDigit then
        let more ← takeWhileUpTo 1 Char.isDigit
        if isOct c && !more.isEmpty && more.all isOct then
          let third ← takeWhileUpTo 1 isOct
          if third.isEmpty then referenceTo options (numberIn 10 (c :: more))
          else
            let n := numberIn 8 (c :: more ++ third)
            if 255 < n then refuse else pure (single options (Char.ofNat n))
        else referenceTo options (numberIn 10 (c :: more))
      else if c.isAlpha then refuse
      else pure (single options c)

def nameUntil (close : Char) : Nat → List Char → Read String
  | 0, _ => refuse
  | fuel + 1, acc => do
    match ← take with
    | .plain c =>
      if c = close then (if acc.isEmpty then refuse else pure (String.ofList acc.reverse))
      else nameUntil close fuel (c :: acc)
    | .escaped c => nameUntil close fuel (c :: '\\' :: acc)

def groupName (close : Char) : Read String := do
  let n := (← get).rest.length
  nameUntil close (n + 1) []

def openGroup (name : Option String) : Read Nat := do
  let s ← get
  let n := s.widths.length + 1
  match name with
  | some w =>
    if (s.names.lookup w).isSome then refuse
    else set { s with widths := s.widths ++ [none], names := (w, n) :: s.names }
  | none => set { s with widths := s.widths ++ [none] }
  pure n

def closeGroup (n : Nat) (body : Regex) : Read Unit :=
  modify fun s =>
    { s with widths := (s.widths.take (n - 1)) ++ [some (width (widthOf s) body)] ++ s.widths.drop n }

def isOptionLetter (c : Char) : Bool := ['i', 'L', 'm', 's', 'x', 'a', 't', 'u'].contains c

def setOption (value : Bool) (o : Options) (c : Char) : Options :=
  match c with
  | 'i' => { o with ignoreCase := value }
  | 'm' => { o with multiline := value }
  | 's' => { o with dotAll := value }
  | 'x' => { o with verbose := value }
  | 'a' => { o with ascii := value }
  | 'u' => { o with ascii := false }
  | _ => o

def optionLetters (closers : List Char) : Nat → List Char → Read (List Char × Char)
  | 0, _ => refuse
  | fuel + 1, acc => do
    match ← take with
    | .plain c =>
      if closers.contains c then pure (acc.reverse, c)
      else if isOptionLetter c then optionLetters closers fuel (c :: acc)
      else refuse
    | .escaped _ => refuse

def optionChange (first : Char) : Read (List Char × List Char × Bool) := do
  let n := (← get).rest.length + 1
  let (on, close) ← if first = '-' then pure ([], '-') else optionLetters [')', '-', ':'] n [first]
  if on.contains 'L' || (on.contains 'a' && on.contains 'u') then refuse
  else if close = ')' then pure (on, [], true)
  else if on.contains 't' then refuse
  else if close = '-' then
    let (off, _) ← optionLetters [':'] n []
    if off.isEmpty || off.any (fun c => c = 'a' || c = 'u' || c = 'L' || c = 't' || on.contains c) then
      refuse
    else pure (on, off, false)
  else pure (on, [], false)

def count (ds : List Char) : Read Nat := do
  Number.checkDigits 10 ds.length
  let n := numberIn 10 ds
  if n < 4294967295 then pure n else throw .tooLarge

def counts : Read (Option (Nat × Option Nat)) := do
  let s ← get
  let n := s.rest.length
  if (← peek) = some (.plain '\x7d') then pure none
  else
    let low ← takeWhileUpTo n Char.isDigit
    let comma ← tryChar ','
    let high ← if comma then takeWhileUpTo n Char.isDigit else pure low
    if ← tryChar '\x7d' then
      let lo ← count low
      let hi ← count high
      if !high.isEmpty && hi < lo then refuse
      else pure (some (lo, if high.isEmpty then none else some hi))
    else
      set s
      pure none

inductive ItemKind where
  | plain
  | place
  | repeated
deriving DecidableEq

structure Item where
  regex : Regex
  kind : ItemKind := .plain

def quantified (acc : List Item) (low : Nat) (high : Option Nat) : Read (List Item) := do
  match acc with
  | ⟨r, .plain⟩ :: before =>
    let mode ← if ← tryChar '?' then pure Mode.lazy
      else if ← tryChar '+' then pure Mode.possessive
      else pure Mode.greedy
    pure (⟨.repeated low high mode r, .repeated⟩ :: before)
  | _ => refuse

def isPlace : Regex → Bool
  | .place _ _ => true
  | _ => false

def sequenceOf (items : List Item) : Regex :=
  match items with
  | [] => .empty
  | i :: is => is.foldl (fun r j => .seq j.regex r) i.regex

structure Inner where
  alternatives : Options → Read Regex
  sequence : Options → Read Regex

def skipComment : Nat → Read Unit
  | 0 => refuse
  | fuel + 1 => do
    if (← take) = .plain ')' then pure () else skipComment fuel

def lookAround (inner : Inner) (options : Options) (negated behind : Bool) : Read Regex := do
  let outer := (← get).behindFrom
  if behind then
    modify fun s => { s with behindFrom := some (outer.getD s.widths.length) }
  let r ← inner.alternatives options
  modify fun s => { s with behindFrom := outer }
  char ')'
  if behind then
    let s ← get
    match width (widthOf s) r with
    | (low, some high) => if low = high then pure (.behind negated low r) else refuse
    | _ => refuse
  else pure (.ahead negated r)

def conditional (inner : Inner) (options : Options) : Read Regex := do
  let name ← groupName ')'
  let s ← get
  let n ← if Text.isIdentifier name.toList then
      match s.names.lookup name with
      | some n => pure n
      | none => refuse
    else
      match Number.int? 10 name.toList with
      | some (.ofNat n) =>
        if n = 0 then refuse
        else
          modify fun s => { s with tested := n :: s.tested }
          pure n
      | _ => refuse
  checkBehind n
  let yes ← inner.sequence options
  let no ← if ← tryChar '|' then inner.sequence options else pure .empty
  char ')'
  pure (.ifGroup n yes no)

def captured (inner : Inner) (options : Options) (name : Option String) : Read Regex := do
  let n ← openGroup name
  let r ← inner.alternatives options
  char ')'
  closeGroup n r
  pure (.group n r)

def namedConstruct (inner : Inner) (options : Options) : Read Regex := do
  match ← take with
  | .plain '<' =>
    let name ← groupName '>'
    if Text.isIdentifier name.toList then captured inner options (some name) else refuse
  | .plain '=' =>
    let name ← groupName ')'
    match (← get).names.lookup name with
    | some n => referenceTo options n
    | none => refuse
  | _ => refuse

def plainGroup (inner : Inner) (options : Options) : Read Regex := do
  let r ← inner.alternatives options
  char ')'
  pure r

/-- A construct behind an opening parenthesis; nothing where it adds no item. `start` holds at the
start of the whole expression, where options for all of it may stand. -/
def construct (inner : Inner) (options : Options) (start : Bool) : Read (Option Regex) := do
  if ← tryChar '?' then
    match ← take with
    | .plain 'P' => some <$> namedConstruct inner options
    | .plain ':' => some <$> plainGroup inner options
    | .plain '#' =>
      skipComment ((← get).rest.length + 1)
      pure none
    | .plain '=' => some <$> lookAround inner options false false
    | .plain '!' => some <$> lookAround inner options true false
    | .plain '<' =>
      match ← take with
      | .plain '=' => some <$> lookAround inner options false true
      | .plain '!' => some <$> lookAround inner options true true
      | _ => refuse
    | .plain '(' => some <$> conditional inner options
    | .plain '>' =>
      let r ← plainGroup inner options
      pure (some (.atomic r))
    | .plain c =>
      if isOptionLetter c || c = '-' then
        let (on, off, global) ← optionChange c
        if global then
          if start then
            modify fun s => { s with options := on.foldl (setOption true) s.options }
            pure none
          else refuse
        else
          let inside := off.foldl (setOption false) (on.foldl (setOption true) options)
          some <$> plainGroup inner inside
      else refuse
    | .escaped _ => refuse
  else some <$> captured inner options none

def skipLine : Nat → Read Unit
  | 0 => refuse
  | fuel + 1 => do
    match ← peek with
    | none => pure ()
    | some (.plain '\n') => discard take
    | some _ => discard take; skipLine fuel

def isVerboseBlank (c : Char) : Bool :=
  c = ' ' || c = '\t' || c = '\n' || c = '\r' || c = '\x0b' || c = '\x0c'

def step (inner : Inner) (options : Options) (start : Bool) (acc : List Item) (x : Symbol) :
    Read (List Item) := do
  match x with
  | .escaped c =>
    let r ← escape options c
    pure (⟨r, if isPlace r then .place else .plain⟩ :: acc)
  | .plain c =>
    if options.verbose && isVerboseBlank c then pure acc
    else if options.verbose && c = '#' then
      skipLine ((← get).rest.length + 1)
      pure acc
    else
      match c with
      | '.' => pure (⟨.any options, .plain⟩ :: acc)
      | '^' => pure (⟨.place options .lineStart, .place⟩ :: acc)
      | '$' => pure (⟨.place options .lineEnd, .place⟩ :: acc)
      | '[' =>
        let negated ← tryChar '^'
        let items ← setItems ((← get).rest.length + 1) []
        pure (⟨.oneOf options negated items, .plain⟩ :: acc)
      | '(' =>
        match ← construct inner options (start && acc.isEmpty) with
        | some r => pure (⟨r, .plain⟩ :: acc)
        | none => pure acc
      | '*' => quantified acc 0 none
      | '+' => quantified acc 1 none
      | '?' => quantified acc 0 (some 1)
      | '\x7b' =>
        match ← counts with
        | some (low, high) => quantified acc low high
        | none => pure (⟨single options c, .plain⟩ :: acc)
      | _ => pure (⟨single options c, .plain⟩ :: acc)

/-- A sequence up to a bar, a closing parenthesis or the end. `top` holds outside of all groups, where
options for the whole expression may change. -/
def sequenceFrom (inner : Inner) (options : Options) (top start : Bool) :
    Nat → List Item → Read Regex
  | 0, _ => refuse
  | fuel + 1, acc => do
    match ← peek with
    | none => pure (sequenceOf acc)
    | some x =>
      if x = .plain '|' || x = .plain ')' then pure (sequenceOf acc)
      else
        discard take
        let whole := (← get).options
        let current := if top then whole else options
        let acc ← step inner current start acc x
        sequenceFrom inner options top start fuel acc

def sequenceRule (inner : Inner) (options : Options) (top start : Bool) : Read Regex := do
  let n := (← get).rest.length
  sequenceFrom inner options top start (n + 1) []

def moreAlternatives (next : Read Regex) : Nat → Regex → Read Regex
  | 0, _ => refuse
  | fuel + 1, r => do
    if ← tryChar '|' then
      let other ← next
      moreAlternatives next fuel (.alt r other)
    else pure r

def alternativesRule (inner : Inner) (options : Options) (top : Bool) : Read Regex := do
  let first ← sequenceRule inner options top top
  moreAlternatives (sequenceRule inner options top false) ((← get).rest.length + 1) first

def depthLimit : Nat := 490

def innerOfDepth : Nat → Inner
  | 0 => ⟨fun _ => throw .tooDeep, fun _ => throw .tooDeep⟩
  | n + 1 =>
    let inner := innerOfDepth n
    { alternatives := fun options => alternativesRule inner options false
      sequence := fun options => sequenceRule inner options false false }

def parse (text : String) : Except Fault Regex := do
  match symbols text.toList with
  | none => throw .pattern
  | some rest =>
    let (r, s) ← (alternativesRule (innerOfDepth depthLimit) {} true).run { rest }
    if s.rest.isEmpty && s.tested.all (· ≤ s.widths.length) then pure r else throw .pattern

end AssetCatalog.Regex
