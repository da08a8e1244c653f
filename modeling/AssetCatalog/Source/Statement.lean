import AssetCatalog.Source.Pattern

/-! The grammar of statements. -/

namespace AssetCatalog.Source

open Reader

namespace Stmt

variable (g : Grammar) (block : Reader (List Stmt))

def dottedName : Reader String := do
  let first ← name
  let more ← many do
    if ← tryOp "." then some <$> name else pure none
  pure (Text.join "." (first :: more))

def secondName : Reader Unit := do
  if ← tryKeyword "as" then discard name else pure ()

def importNames (line : Nat) : Reader Stmt := do
  let first ← dottedName
  secondName
  let more ← many do
    if ← tryOp "," then
      let n ← dottedName
      secondName
      pure (some n)
    else pure none
  pure (.imports line (first :: more))

def importedItem : Reader Unit := do
  discard name
  secondName

def importTargets : Reader Unit := do
  if ← tryOp "*" then pure ()
  else if ← tryOp "(" then
    discard (commaItems importedItem)
    op ")"
  else
    let (_, trailing) ← commaItems importedItem
    if trailing then failure else pure ()

def importFrom (line : Nat) : Reader Stmt := do
  let dots ← many do
    if ← tryOp "." then pure (some 1)
    else if ← tryOp "..." then pure (some 3)
    else pure none
  let level := dots.foldl (· + ·) 0
  let module ← if isKeyword "import" (← peek) && level ≠ 0 then pure none else some <$> dottedName
  keyword "import"
  importTargets
  pure (.importsFrom line level module)

def isSingleTarget : Expr → Bool
  | .name _ => true
  | .attribute _ _ => true
  | .subscript _ _ => true
  | _ => false

def updates : List String :=
  ["+=", "-=", "*=", "@=", "/=", "%=", "&=", "|=", "^=", "<<=", ">>=", "**=", "//="]

def isUpdate : Option Lexeme → Bool
  | some (.op s) => updates.contains s
  | _ => false

def assignedValue : Reader Unit := do
  let one : Reader Expr := g.yieldedOrExpressions
  let first ← one
  discard (fold (fun (e : Expr) => do
    if isOp "=" (← peek) then
      if e.isTarget then
        discard take
        some <$> one
      else failure
    else pure none) first)

def expressionOrAssignment : Reader Stmt := do
  let e ← g.yieldedOrExpressions
  let next ← peek
  if isOp "=" next then
    if e.isTarget then
      discard take
      assignedValue g
      pure .other
    else failure
  else if isOp ":" next then
    if isSingleTarget e then
      discard take
      discard g.expression
      if ← tryOp "=" then discard g.yieldedOrExpressions
      pure .other
    else failure
  else if isUpdate next then
    if isSingleTarget e then
      discard take
      discard g.yieldedOrExpressions
      pure .other
    else failure
  else pure (.expression e)

mutual

def isDeletable : Expr → Bool
  | .name _ => true
  | .attribute _ _ => true
  | .subscript _ _ => true
  | .tuple es => allDeletable es
  | .list es => allDeletable es
  | _ => false

def allDeletable : List Expr → Bool
  | [] => true
  | e :: es => isDeletable e && allDeletable es

end

def endsSimple (l : Option Lexeme) : Bool :=
  isOp ";" l || match l with
    | some .newline => true
    | _ => false

def deletion : Reader Stmt := do
  let (es, _) ← commaItems g.bitOr
  if allDeletable es && endsSimple (← peek) then pure .other else failure

def simpleAt (line : Nat) : Reader Stmt := do
  match ← peek with
  | some (.keyword k) =>
    if k = "pass" || k = "break" || k = "continue" then discard take; pure .other
    else if k = "import" then discard take; importNames line
    else if k = "from" then discard take; importFrom line
    else if k = "return" then
      discard take
      discard (maybe g.starExpressions)
      pure .other
    else if k = "raise" then
      discard take
      match ← maybe g.expression with
      | some _ => if ← tryKeyword "from" then discard g.expression
      | none => pure ()
      pure .other
    else if k = "global" || k = "nonlocal" then
      discard take
      let (_, trailing) ← commaItems name
      if trailing then failure else pure .other
    else if k = "del" then discard take; deletion g
    else if k = "assert" then
      discard take
      discard g.expression
      if ← tryOp "," then discard g.expression
      pure .other
    else expressionOrAssignment g
  | _ => expressionOrAssignment g

def simple : Reader Stmt := do
  let ts ← get
  simpleAt g ((ts.head?.map fun t => t.span.start.line).getD 0)

def simpleLine : Reader (List Stmt) := do
  let first ← simple g
  let more ← many do
    if isOp ";" (← peek) then maybe (do op ";"; simple g) else pure none
  discard (tryOp ";")
  newline
  pure (first :: more)

def elseBlock : Reader (List Stmt) := do
  if ← tryKeyword "else" then
    op ":"
    block
  else pure []

def branchRule : Reader Stmt := do
  keyword "if"
  let arm : Reader (List Stmt) := do
    discard g.named
    op ":"
    block
  let first ← arm
  let more ← many do
    if ← tryKeyword "elif" then some <$> arm else pure none
  let last ← elseBlock block
  pure (.branch first (more.foldr (fun body rest => [.branch body rest]) last))

def whileRule : Reader Stmt := do
  keyword "while"
  discard g.named
  op ":"
  let body ← block
  let orelse ← elseBlock block
  pure (.loop body orelse)

def forRule : Reader Stmt := do
  keyword "for"
  discard g.targets
  keyword "in"
  discard g.starExpressions
  op ":"
  let body ← block
  let orelse ← elseBlock block
  pure (.loop body orelse)

def withItem : Reader Unit := do
  discard g.expression
  if ← tryKeyword "as" then
    let t ← if ← tryOp "*" then Expr.starred <$> g.bitOr else g.bitOr
    if t.isTarget then pure () else failure
  else pure ()

def withRule : Reader Stmt := do
  keyword "with"
  let bracketed : Reader Unit := do
    op "("
    discard (commaItems (withItem g))
    op ")"
    op ":"
  let plain : Reader Unit := do
    let (_, trailing) ← commaItems (withItem g)
    if trailing then failure
    op ":"
  bracketed <|> plain
  let body ← block
  pure (.scope body)

def handler : Reader (Option (Bool × List Stmt)) := do
  if ← tryKeyword "except" then
    let starred ← tryOp "*"
    if isOp ":" (← peek) then
      if starred then failure
    else
      discard g.expression
      if ← tryKeyword "as" then discard name
    op ":"
    let body ← block
    pure (some (starred, body))
  else pure none

def finalBlock : Reader (Option (List Stmt)) := do
  if ← tryKeyword "finally" then
    op ":"
    some <$> block
  else pure none

def tryRule : Reader Stmt := do
  keyword "try"
  op ":"
  let body ← block
  let handlers ← many (handler g block)
  if handlers.any (·.1) && !handlers.all (·.1) then failure
  let orelse ← if handlers.isEmpty then pure [] else elseBlock block
  let final ← finalBlock block
  if handlers.isEmpty && final.isNone then failure
  else pure (.guarded body (handlers.map (·.2)) orelse (final.getD []))

def functionRule (decorators : List Expr) :
    Reader Stmt := do
  discard (tryKeyword "async")
  keyword "def"
  let n ← name
  op "("
  let ps ← g.parameters true ")"
  op ")"
  let returns ← if ← tryOp "->" then some <$> g.expression else pure none
  op ":"
  let body ← block
  pure (.function n decorators ps returns body)

def classRule : Reader Stmt := do
  keyword "class"
  let n ← name
  if ← tryOp "(" then discard (g.arguments false)
  op ":"
  let body ← block
  pure (.classDef n body)

def decorated : Reader Stmt := do
  let decorators ← many do
    if ← tryOp "@" then
      let e ← g.named
      newline
      pure (some e)
    else pure none
  if isKeyword "class" (← peek) then classRule g block else functionRule g block decorators

def asyncRule : Reader Stmt := do
  let next ← peekSecond
  if isKeyword "def" next then functionRule g block []
  else
    discard take
    if isKeyword "for" next then forRule g block else withRule g block

def caseRule : Reader (Option (List Stmt)) := do
  match ← peek with
  | some (.name "case") =>
    discard take
    Pattern.casePatterns g
    if ← tryKeyword "if" then discard g.named
    op ":"
    let body ← block
    pure (some body)
  | _ => pure none

def openBlock : Reader Unit := do
  newline
  match ← peek with
  | some .indent => discard take
  | _ => failure

def closeBlock : Reader Unit := do
  match ← peek with
  | some .dedent => discard take
  | _ => failure

def casesRule : Reader Stmt := do
  op ":"
  openBlock
  let cases ← many (caseRule g block)
  if cases.isEmpty then failure
  closeBlock
  pure (.choice cases)

def matchRule : Reader Stmt := do
  word "match"
  let (items, trailing) ← commaItems g.starNamed
  match items, trailing with
  | [.starred _], false => failure
  | _, _ => casesRule g block

def statement : Reader (List Stmt) := do
  let one (r : Reader Stmt) : Reader (List Stmt) := do
    let s ← r
    pure [s]
  match ← peek with
  | some (.op "@") => one (decorated g block)
  | some (.name "match") => one (matchRule g block) <|> simpleLine g
  | some (.keyword k) =>
    if k = "def" then one (functionRule g block [])
    else if k = "class" then one (classRule g block)
    else if k = "if" then one (branchRule g block)
    else if k = "for" then one (forRule g block)
    else if k = "while" then one (whileRule g block)
    else if k = "try" then one (tryRule g block)
    else if k = "with" then one (withRule g block)
    else if k = "async" then one (asyncRule g block)
    else simpleLine g
  | _ => simpleLine g

def statements : Reader (List Stmt) := do
  let groups ← many do
    match ← peek with
    | none => pure none
    | some .dedent => pure none
    | some _ => some <$> statement g block
  pure groups.flatten

/-- A block whose own blocks are at most so deep: an indented one, or the rest of a line. -/
def blockOfDepth (g : Grammar) : Nat → Reader (List Stmt)
  | 0 => failure
  | n + 1 => do
    match ← peek with
    | some .newline =>
      openBlock
      let body ← statements g (blockOfDepth g n)
      if body.isEmpty then failure
      closeBlock
      pure body
    | _ => simpleLine g

/-- Blocks are at most so deep, since indentation is. -/
def depthLimit : Nat := 101

def parse (source : String) : Except Fault (List Stmt) := do
  let tokens ← Token.ofText source.toList
  let g := Grammar.ofTokens tokens
  match (statements g (blockOfDepth g depthLimit)).run tokens with
  | some (body, []) => pure body
  | _ => throw .source

end Stmt

end AssetCatalog.Source
