import AssetCatalog.Toml.Scalar

/-! Documents of TOML. A table may be opened once, and what is written in line is closed for good. -/

namespace AssetCatalog.Toml

abbrev Entries := List (Value × Value)

/-- Changes the table that a key leads to; tables on the way are made where there are none. The
last table of an array stands for it if `lists` holds. -/
def within (lists : Bool) (change : Entries → Option Entries) : List String → Entries → Option Entries
  | [], es => change es
  | k :: ks, es =>
    match Value.named k es with
    | none => (within lists change ks []).map fun t => Value.put (.text k) (.map t) es
    | some (.map inner) =>
      (within lists change ks inner).map fun t => Value.put (.text k) (.map t) es
    | some (.list xs) =>
      match xs.getLast? with
      | some (.map inner) =>
        if lists then
          (within lists change ks inner).map fun t =>
            Value.put (.text k) (.list (xs.dropLast ++ [.map t])) es
        else none
      | _ => none
    | some _ => none

def addEntry (name : String) (v : Value) (es : Entries) : Option Entries :=
  if (Value.named name es).isSome then none else some (es ++ [(.text name, v)])

def putEntry (lists : Bool) (key : List String) (v : Value) (es : Entries) : Option Entries :=
  match key.getLast? with
  | some name => within lists (addEntry name v) key.dropLast es
  | none => none

def isClosed : Value → Bool
  | .map _ => true
  | .list _ => true
  | _ => false

def isFrozen (frozen : List (List String)) (key : List String) : Bool :=
  frozen.any fun f => f.isPrefixOf key

def readEntry (value : Reader Value) : Reader (List String × Value) := do
  let key ← readKey
  expect '='
  skip isBlank
  let v ← value
  pure (key, v)

mutual

def readValue : Nat → Reader Value
  | 0 => throw .toml
  | fuel + 1 => do
    match ← next? ['"', '\'', '[', '\x7b'].contains with
    | some '[' => .list <$> readItems fuel
    | some '\x7b' => do
      skip isBlank
      if ← follows '\x7d' then pure (.map []) else .map <$> readInline fuel [] []
    | some quote => .text <$> textAfter quote
    | none => readScalar

def readItems : Nat → Reader (List Value)
  | 0 => throw .toml
  | fuel + 1 => do
    skipAll
    if ← follows ']' then pure []
    else
      let v ← readValue fuel
      skipAll
      if ← follows ',' then (v :: ·) <$> readItems fuel
      else
        expect ']'
        pure [v]

def readInline : Nat → Entries → List (List String) → Reader Entries
  | 0, _, _ => throw .toml
  | fuel + 1, es, frozen => do
    let (key, v) ← readEntry (readValue fuel)
    let es ← orRefuse (if isFrozen frozen key then none else putEntry false key v es)
    skip isBlank
    if ← follows ',' then
      skip isBlank
      readInline fuel es (if isClosed v then key :: frozen else frozen)
    else
      expect '\x7d'
      pure es

end

structure Reading where
  entries : Entries := []
  header : List String := []
  opened : List (List String) := []
  pending : List (List String) := []
  frozen : List (List String) := []

variable (r : Reading)

def emptyTable (es : Entries) : Option Entries := some es

def appendTable (name : String) (es : Entries) : Option Entries :=
  match Value.named name es with
  | none => some (es ++ [(.text name, .list [.map []])])
  | some (.list xs) => some (Value.put (.text name) (.list (xs ++ [.map []])) es)
  | some _ => none

def waysOf (header key : List String) : List (List String) :=
  (List.range (key.length - 1)).map fun i => header ++ key.take (i + 1)

inductive Step where
  | table (key : List String)
  | arrayTable (key : List String)
  | entry (key : List String) (v : Value)

/-- Whether a step opens a table again, or goes through a table that was opened or into something
closed. -/
def Step.isRefused : Step → Bool
  | .table key => (r.pending ++ r.opened).contains key || isFrozen r.frozen key
  | .arrayTable key => isFrozen r.frozen key
  | .entry key _ =>
    (waysOf r.header key).any r.opened.contains || isFrozen r.frozen (r.header ++ key).dropLast

def Step.change : Step → Option Entries
  | .table key => within true emptyTable key r.entries
  | .arrayTable key =>
    key.getLast?.bind fun name => within true (appendTable name) key.dropLast r.entries
  | .entry key v => putEntry true (r.header ++ key) v r.entries

def Step.after (s : Step) (entries : Entries) : Reading :=
  let opened := r.pending ++ r.opened
  match s with
  | .table key => { r with entries, header := key, opened := key :: opened, pending := [] }
  | .arrayTable key =>
    { r with
      entries, header := key, pending := []
      opened := key :: opened.filter fun k => !key.isPrefixOf k
      frozen := r.frozen.filter fun k => !key.isPrefixOf k }
  | .entry key v =>
    { r with
      entries, pending := waysOf r.header key ++ r.pending
      frozen := if isClosed v then (r.header ++ key) :: r.frozen else r.frozen }

def Step.run (s : Step) : Option Reading :=
  if s.isRefused r then none else (s.change r).map (s.after r)

def runSteps (ss : List Step) : Option Reading := ss.foldlM Step.run r

def readStep : Reader Step := do
  if ← follows '[' then
    if ← follows '[' then
      skip isBlank
      let key ← readKey
      expect ']'
      expect ']'
      pure (.arrayTable key)
    else
      skip isBlank
      let key ← readKey
      expect ']'
      pure (.table key)
  else
    let (key, v) ← readEntry (fueled readValue)
    pure (.entry key v)

def readStepsFor : Option Char → Reader (List Step)
  | none | some '\n' | some '#' => pure []
  | some _ => do
    let s ← readStep
    pure [s]

def readSteps : Reader (List Step) := do readStepsFor (← get).head?

def Reading.statement : Reader Reading := do orRefuse (runSteps r (← readSteps))

def readLine : Reader (List Step) := do
  skip isBlank
  let ss ← readSteps
  skip isBlank
  skipComment
  pure ss

def documentFrom : Nat → Reading → List Char → Except Fault Reading
  | 0, _, _ => throw .toml
  | fuel + 1, r, cs => do
    let (ss, rest) ← readLine cs
    let r ← (runSteps r ss).elim (throw .toml) pure
    match rest with
    | [] => pure r
    | '\n' :: rest => documentFrom fuel r rest
    | _ => throw .toml

def unifyLineEnds : List Char → List Char
  | '\r' :: '\n' :: cs => '\n' :: unifyLineEnds cs
  | c :: cs => c :: unifyLineEnds cs
  | [] => []

def parse (s : String) : Except Fault Value :=
  let cs := unifyLineEnds s.toList
  (documentFrom (cs.length + 1) {} cs).map fun r => .map r.entries

end AssetCatalog.Toml
