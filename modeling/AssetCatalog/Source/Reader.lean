import AssetCatalog.Source.Token

/-! Reading from a list of tokens. A failure leaves the tokens as they were. -/

namespace AssetCatalog.Source

abbrev Reader := StateT (List Token) Option

namespace Reader

variable (s : String)

def peek : Reader (Option Lexeme) := do
  let ts ← get
  pure (ts.head?.map Token.lexeme)

def peekSecond : Reader (Option Lexeme) := do
  let ts ← get
  pure (ts.tail.head?.map Token.lexeme)

def isOp : Option Lexeme → Bool
  | some (.op t) => s = t
  | _ => false

def isKeyword : Option Lexeme → Bool
  | some (.keyword t) => s = t
  | _ => false

def take : Reader Token := do
  match ← get with
  | t :: ts => set ts; pure t
  | [] => failure

def op : Reader Unit := do
  if isOp s (← peek) then discard take else failure

def tryOp : Reader Bool := do
  if isOp s (← peek) then discard take; pure true else pure false

def keyword : Reader Unit := do
  if isKeyword s (← peek) then discard take else failure

def tryKeyword : Reader Bool := do
  if isKeyword s (← peek) then discard take; pure true else pure false

def name : Reader String := do
  match ← peek with
  | some (.name s) => discard take; pure s
  | _ => failure

def word : Reader Unit := do
  if (← name) = s then pure () else failure

def newline : Reader Unit := do
  match ← peek with
  | some .newline => discard take
  | _ => failure

def maybe {α : Type} (item : Reader α) : Reader (Option α) := (some <$> item) <|> pure none

def repeatFrom {α : Type} (item : Reader (Option α)) : Nat → List α → Reader (List α)
  | 0, _ => failure
  | fuel + 1, acc => do
    match ← item with
    | some a => repeatFrom item fuel (a :: acc)
    | none => pure acc.reverse

def many {α : Type} (item : Reader (Option α)) : Reader (List α) := do
  let ts ← get
  repeatFrom item (ts.length + 1) []

def foldFrom {α : Type} (step : α → Reader (Option α)) : Nat → α → Reader α
  | 0, _ => failure
  | fuel + 1, a => do
    match ← step a with
    | some b => foldFrom step fuel b
    | none => pure a

def fold {α : Type} (step : α → Reader (Option α)) (a : α) : Reader α := do
  let ts ← get
  foldFrom step (ts.length + 1) a

def commaItems {α : Type} (item : Reader α) : Reader (List α × Bool) := do
  let first ← item
  let more ← many do
    if isOp "," (← peek) then maybe (do op ","; item) else pure none
  let trailing ← tryOp ","
  pure (first :: more, trailing)

end Reader

end AssetCatalog.Source
