import AssetCatalog.Number.Reading

/-! Blanks, comments, keys and texts of TOML. -/

namespace AssetCatalog.Toml

variable (c : Char) (p : Char → Bool)

abbrev Reader : Type → Type := StateT (List Char) (Except Fault)

def orRefuse {α : Type} (x : Option α) : Reader α := x.elim (throw .toml) pure

def next? : Reader (Option Char)
  | c :: cs => pure (if p c then (some c, cs) else (none, c :: cs))
  | [] => pure (none, [])

def next (p : Char → Bool) : Reader Char := do orRefuse (← next? p)

def follows (x : Char) : Reader Bool := Option.isSome <$> next? (· = x)

def expect (x : Char) : Reader Unit := do
  let _ ← next (· = x)

def charsOf : Reader (List Char) := fun cs => pure (cs.takeWhile p, cs.dropWhile p)

def skip : Reader Unit := do
  let _ ← charsOf p

/-- A reader to which the text ends behind the characters of the kind at its front. -/
def inFront {α : Type} (p : Char → Bool) (f : Reader α) : Reader α := fun cs => do
  let run := cs.takeWhile p
  let (a, rest) ← f run
  pure (a, cs.drop (run.length - rest.length))

def exactly (p : Char → Bool) : Nat → Reader (List Char)
  | 0 => pure []
  | count + 1 => do
    let c ← next p
    let cs ← exactly p count
    pure (c :: cs)

/-- A reader that takes a character in each round has enough fuel. -/
def fueled {α : Type} (f : Nat → Reader α) : Reader α := fun cs => f (cs.length + 1) cs

def isBlank : Bool := c = ' ' || c = '\t'

def isSpace : Bool := isBlank c || c = '\n'

def isControl : Bool := (c.toNat < 32 && c ≠ '\t') || c.toNat = 127

def skipComment : Reader Unit := do
  if ← follows '#' then skip fun c => !isControl c else pure ()

def skipAllFrom : Nat → Reader Unit
  | 0 => throw .toml
  | fuel + 1 => do
    skip isSpace
    if ← follows '#' then
      skip fun c => !isControl c
      skipAllFrom fuel
    else pure ()

def skipAll : Reader Unit := fueled skipAllFrom

def isHex : Bool := c.toNat < 128 && (Number.digitIn 16 c).isSome

def hexChar (count : Nat) : Reader (List Char) := do
  let n := Number.ofDigits 16 ((← exactly isHex count).filterMap (Number.digitIn 16))
  if n.isValidChar then pure [Char.ofNat n] else throw .toml

def allowed (multi : Bool) (c : Char) : Bool := !isControl c || (multi && c = '\n')

def escapes : List (Char × Char) :=
  [('b', '\x08'), ('t', '\t'), ('n', '\n'), ('f', '\x0c'), ('r', '\r'), ('"', '"'), ('\\', '\\')]

/-- What stands for characters behind a backslash. A backslash at the end of a line takes the white
space before the next word. -/
def escape (multi : Bool) : Reader (List Char) := do
  let c ← next (allowed multi)
  if multi && isSpace c then
    let more ← charsOf isSpace
    if (c :: more).contains '\n' then pure [] else throw .toml
  else if c = 'u' then hexChar 4
  else if c = 'U' then hexChar 8
  else orRefuse ((escapes.lookup c).map ([·]))

def quoteCount (multi : Bool) : Nat := if multi then 3 else 1

def textFrom (quote : Char) (multi : Bool) : Nat → Nat → List Char → Reader (List Char)
  | 0, _, _ => throw .toml
  | fuel + 1, seen, acc => do
    let c ← next (allowed multi)
    if c = quote then
      if seen + 1 = quoteCount multi then pure (acc.drop seen).reverse
      else textFrom quote multi fuel (seen + 1) (c :: acc)
    else if c = '\\' && quote = '"' then
      let cs ← escape multi
      textFrom quote multi fuel 0 (cs.reverse ++ acc)
    else textFrom quote multi fuel 0 (c :: acc)

def textBody (quote : Char) (multi : Bool) : Reader (List Char) :=
  fueled fun fuel => textFrom quote multi fuel 0 []

def atMost (x : Char) : Nat → Reader (List Char)
  | 0 => pure []
  | count + 1 => do
    if ← follows x then
      let xs ← atMost x count
      pure (x :: xs)
    else pure []

/-- A text, from its first quote on. Up to two quotes right before the closing ones belong to a text of
several lines. -/
def textAfter (quote : Char) : Reader String := do
  if ← follows quote then
    if ← follows quote then
      let _ ← follows '\n'
      let body ← textBody quote true
      let quotes ← atMost quote 2
      pure (String.ofList (body ++ quotes))
    else pure ""
  else
    let body ← textBody quote false
    pure (String.ofList body)

def isKeyChar : Bool := c.isAlphanum || c = '-' || c = '_'

def readKeyPart : Reader String := do
  match ← next? ['"', '\''].contains with
  | some quote =>
    let body ← textBody quote false
    pure (String.ofList body)
  | none =>
    let c ← next isKeyChar
    let cs ← charsOf isKeyChar
    pure (String.ofList (c :: cs))

def keyFrom : Nat → Reader (List String)
  | 0 => throw .toml
  | fuel + 1 => do
    let part ← readKeyPart
    skip isBlank
    if ← follows '.' then
      skip isBlank
      let parts ← keyFrom fuel
      pure (part :: parts)
    else pure [part]

def readKey : Reader (List String) := fueled keyFrom

end AssetCatalog.Toml
