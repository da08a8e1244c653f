import AssetCatalog.Source.Expression

/-! The grammar of patterns. Patterns are recognised and not kept. -/

namespace AssetCatalog.Source

open Reader

namespace Pattern

variable (g : Grammar) (self : Reader Unit)

def capture : Reader Unit := do
  if (← name) = "_" then failure
  else
    let next ← peek
    if isOp "." next || isOp "(" next || isOp "=" next then failure else pure ()

def wildcard : Reader Unit := word "_"

def signedNumber : Reader Value := do
  discard (tryOp "-")
  match ← peek with
  | some (.number v) => discard take; pure v
  | _ => failure

def isImaginary : Value → Bool
  | .imaginary _ => true
  | _ => false

def numberLiteral : Reader Unit := do
  let v ← signedNumber
  let next ← peek
  if isOp "+" next || isOp "-" next then
    if isImaginary v then failure
    else
      discard take
      match ← peek with
      | some (.number w) => if isImaginary w then discard take else failure
      | _ => failure
  else pure ()

def wordLiteral : Reader Unit := do
  match ← peek with
  | some (.keyword k) =>
    if k = "None" || k = "True" || k = "False" then discard take else failure
  | _ => failure

def textLiteral : Reader Unit := do
  match ← peek with
  | some (.quote _) => discard g.atom
  | _ => failure

def literal : Reader Unit := numberLiteral <|> textLiteral g <|> wordLiteral

def dottedNames : Reader Nat := do
  discard name
  let more ← many do
    if ← tryOp "." then some <$> name else pure none
  pure more.length

def value : Reader Unit := do
  if (← dottedNames) = 0 then failure
  else
    let next ← peek
    if isOp "(" next || isOp "=" next then failure else pure ()

def star : Reader Unit := do
  op "*"
  capture <|> wildcard

def itemsThen (item : Reader Unit) (close : String) : Reader Unit := do
  if ← tryOp close then pure ()
  else
    discard (commaItems item)
    op close

def sequence : Reader Unit := do
  let item : Reader Unit := star <|> self
  if ← tryOp "[" then itemsThen item "]"
  else
    op "("
    if ← tryOp ")" then pure ()
    else
      item
      op ","
      itemsThen item ")"

def group : Reader Unit := do
  op "("
  self
  op ")"

def mappingRest : Reader Unit := do
  op "**"
  capture
  discard (tryOp ",")
  op "\x7d"

def mapping : Reader Unit := do
  op "\x7b"
  if ← tryOp "\x7d" then pure ()
  else if isOp "**" (← peek) then mappingRest
  else
    let item : Reader Unit := do
      literal g <|> value
      op ":"
      self
    let (_, trailing) ← commaItems item
    if trailing && isOp "**" (← peek) then mappingRest else op "\x7d"

def keywordItem : Reader Unit := do
  discard name
  op "="
  self

def classPattern : Reader Unit := do
  discard dottedNames
  op "("
  if ← tryOp ")" then pure ()
  else
    let item : Reader Bool := (do keywordItem self; pure true) <|> (do self; pure false)
    let (kinds, _) ← commaItems item
    op ")"
    -- patterns by place come first
    if (kinds.dropWhile (!·)).all id then pure () else failure

def closed : Reader Unit :=
  literal g <|> capture <|> (do
    wildcard
    let next ← peek
    if isOp "." next || isOp "(" next || isOp "=" next then failure else pure ()) <|> value <|>
    group self <|> sequence self <|> mapping g self <|> classPattern self

def alternatives : Reader Unit := do
  closed g self
  discard (many do
    if ← tryOp "|" then some <$> closed g self else pure none)

def rule : Reader Unit := do
  alternatives g self
  if ← tryKeyword "as" then capture else pure ()

def ofDepth (g : Grammar) : Nat → Reader Unit
  | 0 => failure
  | n + 1 => rule g (ofDepth g n)

def patterns (depth : Nat) : Reader Unit := do
  let one := ofDepth g depth
  let (items, trailing) ← commaItems ((do star; pure true) <|> (do one; pure false))
  match items, trailing with
  | [true], false => failure
  | _, _ => pure ()

def casePatterns : Reader Unit := do
  let ts ← get
  patterns g (ts.length + 1)

end Pattern

end AssetCatalog.Source
