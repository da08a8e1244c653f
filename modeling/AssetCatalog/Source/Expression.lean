import AssetCatalog.Source.Reader
import AssetCatalog.Source.Literal

/-! The grammar of expressions: that of each depth is built from the one before. -/

namespace AssetCatalog.Source

open Reader

structure Grammar where
  expression : Reader Expr
  disjunction : Reader Expr
  bitOr : Reader Expr

namespace Grammar

variable (g : Grammar)

def empty : Grammar := ⟨failure, failure, failure⟩

/-- `name := value`, or an expression that is not the name of such a value. -/
def named : Reader Expr := do
  match ← peek, ← peekSecond with
  | some (.name n), some (.op ":=") =>
    discard take
    discard take
    let v ← g.expression
    pure (.assigned (.name n) v)
  | _, _ =>
    let e ← g.expression
    if isOp ":=" (← peek) then failure else pure e

def starExpression : Reader Expr := do
  if ← tryOp "*" then Expr.starred <$> g.bitOr else g.expression

def starNamed : Reader Expr := do
  if ← tryOp "*" then Expr.starred <$> g.bitOr else g.named

def tupleOr (items : List Expr × Bool) : Expr :=
  match items with
  | ([e], false) => e
  | (es, _) => .tuple es

def starExpressions : Reader Expr := tupleOr <$> commaItems g.starExpression

def yielded : Reader Expr := do
  keyword "yield"
  if ← tryKeyword "from" then Expr.yieldFrom <$> g.expression
  else Expr.yield <$> maybe g.starExpressions

def yieldedOrExpressions : Reader Expr := do
  if isKeyword "yield" (← peek) then g.yielded else g.starExpressions

end Grammar

mutual

def Expr.isTarget : Expr → Bool
  | .name _ => true
  | .attribute _ _ => true
  | .subscript _ _ => true
  | .tuple es => allTargets es
  | .list es => allTargets es
  | .starred e => e.isPlainTarget
  | _ => false

def allTargets : List Expr → Bool
  | [] => true
  | e :: es => e.isTarget && allTargets es

def Expr.isPlainTarget : Expr → Bool
  | .name _ => true
  | .attribute _ _ => true
  | .subscript _ _ => true
  | .tuple es => allTargets es
  | .list es => allTargets es
  | _ => false

end

namespace Grammar

variable (g : Grammar)
variable (typed : Bool)

def targetItem : Reader Expr := do
  let e ← if ← tryOp "*" then Expr.starred <$> g.bitOr else g.bitOr
  if e.isTarget then pure e else failure

def targets : Reader Expr := tupleOr <$> commaItems g.targetItem

def clause : Reader (Option Clause) := do
  let next ← peek
  if isKeyword "for" next || isKeyword "async" next then
    let asynchronous ← tryKeyword "async"
    keyword "for"
    let target ← g.targets
    keyword "in"
    let source ← g.disjunction
    let conditions ← many do
      if ← tryKeyword "if" then some <$> g.disjunction else pure none
    pure (some (.mk asynchronous target source conditions))
  else pure none

def startsClause (l : Option Lexeme) : Bool := isKeyword "for" l || isKeyword "async" l

def clauses : Reader (List Clause) := do
  let cs ← many g.clause
  if cs.isEmpty then failure else pure cs

def isStarred : Expr → Bool
  | .starred _ => true
  | _ => false

def isAssigned : Expr → Bool
  | .assigned _ _ => true
  | _ => false

def itemsUntil (item : Reader Expr) (close : String) : Reader (List Expr) := do
  if ← tryOp close then pure []
  else
    let (es, _) ← commaItems item
    op close
    pure es

def parenthesized : Reader Expr := do
  op "("
  if ← tryOp ")" then pure (.tuple [])
  else if isKeyword "yield" (← peek) then
    let e ← g.yielded
    op ")"
    pure e
  else
    let e ← g.starNamed
    if ← tryOp "," then
      let es ← itemsUntil g.starNamed ")"
      pure (.tuple (e :: es))
    else if isStarred e then failure
    else if startsClause (← peek) then
      let cs ← g.clauses
      op ")"
      pure (.generator e cs)
    else
      op ")"
      pure e

def bracketed : Reader Expr := do
  op "["
  if ← tryOp "]" then pure (.list [])
  else
    let e ← g.starNamed
    if ← tryOp "," then
      let es ← itemsUntil g.starNamed "]"
      pure (.list (e :: es))
    else if startsClause (← peek) && !isStarred e then
      let cs ← g.clauses
      op "]"
      pure (.listOf e cs)
    else
      op "]"
      pure (.list [e])

def entry : Reader (Option Expr × Expr) := do
  if ← tryOp "**" then
    let v ← g.bitOr
    pure (none, v)
  else
    let k ← g.expression
    op ":"
    let v ← g.expression
    pure (some k, v)

def moreEntries (first : Option Expr × Expr) : Reader Expr := do
  if ← tryOp "," then
    if ← tryOp "\x7d" then pure (.dict [first])
    else
      let (es, _) ← commaItems g.entry
      op "\x7d"
      pure (.dict (first :: es))
  else
    op "\x7d"
    pure (.dict [first])

def braced : Reader Expr := do
  op "\x7b"
  if ← tryOp "\x7d" then pure (.dict [])
  else if isOp "**" (← peek) then
    let e ← g.entry
    g.moreEntries e
  else
    let e ← g.starNamed
    if isOp ":" (← peek) then
      if isStarred e || isAssigned e then failure
      else
        op ":"
        let v ← g.expression
        if startsClause (← peek) then
          let cs ← g.clauses
          op "\x7d"
          pure (.dictOf e v cs)
        else g.moreEntries (some e, v)
    else if ← tryOp "," then
      let es ← itemsUntil g.starNamed "\x7d"
      pure (.set (e :: es))
    else if startsClause (← peek) && !isStarred e then
      let cs ← g.clauses
      op "\x7d"
      pure (.setOf e cs)
    else
      op "\x7d"
      pure (.set [e])

def ofFieldText (text : List Char) : Option Expr := do
  match Token.ofText ('(' :: text ++ [')']) with
  | .ok ts =>
    let (e, _) ← g.starExpressions.run ts
    some e
  | .error _ => none

def mergeTexts : List Part → List Part
  | .text a :: rest =>
    match mergeTexts rest with
    | .text b :: more => .text (a ++ b) :: more
    | more => .text a :: more
  | e :: rest => e :: mergeTexts rest
  | [] => []

mutual

def partsOf (g : Grammar) : List Quote.Piece → Option (List Part)
  | [] => some []
  | p :: ps => do
    let e ← partOf g p
    let es ← partsOf g ps
    some (e ++ es)

def partOf (g : Grammar) : Quote.Piece → Option (List Part)
  | .text s => some [.text (String.ofList s)]
  | .field source shown conversion format => do
    let e ← g.ofFieldText source
    let spec ← formatOf g format
    let front := (shown.map fun s => [Part.text (String.ofList s)]).getD []
    some (front ++ [.field e conversion spec])

def formatOf (g : Grammar) : Option (List Quote.Piece) → Option (Option (List Part))
  | none => some none
  | some ps => (partsOf g ps).map fun es => some (mergeTexts es)

end

def quoteParts (q : Quote) : Option (List Part) :=
  if q.format then do
    let (ps, rest) ← Quote.pieces q.raw 2 false (q.body.length + 1) q.body
    if rest.isEmpty then g.partsOf ps else none
  else (q.chars? q.body).map fun s => if s.isEmpty then [] else [.text (String.ofList s)]

def plainText (q : Quote) : Option String := (q.chars? q.body).map String.ofList

def quotesExpr (qs : List Quote) (span : Span) : Option Expr := do
  let marked := (qs.head?.map Quote.marked).getD false
  if qs.any Quote.bytes then
    if qs.all Quote.bytes then
      let bs ← qs.mapM Quote.bytes?
      some (.constant (.bytes bs.flatten) marked span)
    else none
  else if qs.any Quote.format then
    let parts ← qs.mapM g.quoteParts
    some (.joined (mergeTexts parts.flatten))
  else
    let texts ← qs.mapM plainText
    some (.constant (.text (String.join texts)) marked span)

def quotes : Reader Expr := do
  let tokens ← many do
    match ← peek with
    | some (.quote q) =>
      let t ← take
      pure (some (q, t.span))
    | _ => pure none
  match tokens.head?, tokens.getLast? with
  | some (_, first), some (_, last) =>
    match g.quotesExpr (tokens.map (·.1)) ⟨first.start, last.stop⟩ with
    | some e => pure e
    | none => failure
  | _, _ => failure

def constantWord? (s : String) : Option Value :=
  if s = "True" then some (.bool true)
  else if s = "False" then some (.bool false)
  else if s = "None" then some .null
  else none

def atom : Reader Expr := do
  match ← peek with
  | some (.name n) => discard take; pure (.name n)
  | some (.number v) =>
    let t ← take
    pure (.constant v false t.span)
  | some (.quote _) => g.quotes
  | some (.keyword k) =>
    match constantWord? k with
    | some v =>
      let t ← take
      pure (.constant v false t.span)
    | none => failure
  | some (.op "(") => g.parenthesized
  | some (.op "[") => g.bracketed
  | some (.op "\x7b") => g.braced
  | some (.op "...") =>
    let t ← take
    pure (.constant .ellipsis false t.span)
  | _ => failure

inductive ArgumentPhase where
  | any
  | named
  | unpacked
deriving DecidableEq

structure Arguments where
  phase : ArgumentPhase := .any
  positional : List Expr := []
  keywords : List (Option String × Expr) := []

def argument (a : Arguments) : Reader Arguments := do
  match ← peek, ← peekSecond with
  | some (.op "**"), _ =>
    discard take
    let v ← g.expression
    pure { a with phase := .unpacked, keywords := a.keywords ++ [(none, v)] }
  | some (.op "*"), _ =>
    if a.phase = .unpacked then failure
    else
      discard take
      let v ← g.expression
      pure { a with positional := a.positional ++ [.starred v] }
  | some (.name n), some (.op "=") =>
    discard take
    discard take
    let v ← g.expression
    let phase := if a.phase = .unpacked then .unpacked else .named
    pure { a with phase, keywords := a.keywords ++ [(some n, v)] }
  | _, _ =>
    if a.phase = .any then
      let e ← g.named
      if isOp "=" (← peek) then failure
      else pure { a with positional := a.positional ++ [e] }
    else failure

def nextArgument (a : Arguments) : Reader (Option Arguments) := do
  match ← peek, ← peekSecond with
  | some (.op ","), some (.op ")") => pure none
  | some (.op ","), _ =>
    discard take
    some <$> g.argument a
  | _, _ => pure none

def moreArguments (first : Arguments) : Reader Arguments := do
  let all ← fold g.nextArgument first
  discard (tryOp ",")
  op ")"
  pure all

/-- The arguments up to the closing parenthesis; a generator needs no parentheses of its own where
it is the only argument of a call. -/
def arguments (generators : Bool) : Reader Arguments := do
  if ← tryOp ")" then pure {}
  else
    let first ← g.argument {}
    match first.positional, startsClause (← peek) && generators with
    | [e], true =>
      if isStarred e then failure
      else
        let cs ← g.clauses
        op ")"
        pure { positional := [.generator e cs] }
    | _, _ => g.moreArguments first

def sliceItem : Reader Expr := do
  if isOp "*" (← peek) then
    discard take
    Expr.starred <$> g.expression
  else
    let lower ← if isOp ":" (← peek) then pure none else some <$> g.named
    if isOp ":" (← peek) then
      match lower with
      | some (.assigned _ _) => failure
      | _ =>
        discard take
        let upper ← maybe g.expression
        let step ← if ← tryOp ":" then maybe g.expression else pure none
        pure (.slice lower upper step)
    else
      match lower with
      | some e => pure e
      | none => failure

def index : Reader Expr := do
  let (es, trailing) ← commaItems g.sliceItem
  op "]"
  match es, trailing with
  | [.starred e], _ => pure (.tuple [.starred e])
  | [e], false => pure e
  | es, _ => pure (.tuple es)

def trailer (e : Expr) : Reader (Option Expr) := do
  match ← peek with
  | some (.op ".") =>
    discard take
    let n ← name
    pure (some (.attribute e n))
  | some (.op "(") =>
    discard take
    let a ← g.arguments true
    pure (some (.call e a.positional a.keywords))
  | some (.op "[") =>
    discard take
    let i ← g.index
    pure (some (.subscript e i))
  | _ => pure none

def primary : Reader Expr := do
  let e ← g.atom
  fold g.trailer e

def awaited : Reader Expr := do
  if ← tryKeyword "await" then Expr.await <$> g.primary else g.primary

def signs : List (String × UnaryOp) := [("+", .plus), ("-", .minus), ("~", .invert)]

def chosen {α : Type} (table : List (String × α)) (l : Option Lexeme) : Option α :=
  match l with
  | some (.op s) => table.lookup s
  | _ => none

/-- Signs bind weaker than powers, and a power's exponent may have signs. -/
def factor (g : Grammar) : Nat → Reader Expr
  | 0 => failure
  | fuel + 1 => do
    match chosen signs (← peek) with
    | some o =>
      discard take
      Expr.unary o <$> g.factor fuel
    | none =>
      let b ← g.awaited
      if ← tryOp "**" then
        let e ← g.factor fuel
        pure (.binary b .pow e)
      else pure b

def leftOps (operand : Reader Expr) (table : List (String × BinaryOp)) : Reader Expr := do
  let first ← operand
  fold (fun e => do
    match chosen table (← peek) with
    | some o =>
      discard take
      let r ← operand
      pure (some (.binary e o r))
    | none => pure none) first

def term : Reader Expr :=
  leftOps (do
    let ts ← get
    g.factor (ts.length + 1))
    [("*", .mul), ("/", .div), ("//", .floorDiv), ("%", .mod), ("@", .matMul)]

def bitOrRule : Reader Expr :=
  let sum := leftOps g.term [("+", .add), ("-", .sub)]
  let shift := leftOps sum [("<<", .shiftLeft), (">>", .shiftRight)]
  let bitAnd := leftOps shift [("&", .bitAnd)]
  let bitXor := leftOps bitAnd [("^", .bitXor)]
  leftOps bitXor [("|", .bitOr)]

def comparisons : List (String × CompareOp) :=
  [("==", .eq), ("!=", .ne), ("<=", .le), ("<", .lt), (">=", .ge), (">", .gt)]

def comparisonOp : Reader (Option CompareOp) := do
  match chosen comparisons (← peek) with
  | some o => discard take; pure (some o)
  | none =>
    if ← tryKeyword "in" then pure (some .isIn)
    else if ← tryKeyword "is" then
      if ← tryKeyword "not" then pure (some .isNot) else pure (some .is)
    else if isKeyword "not" (← peek) && isKeyword "in" (← peekSecond) then
      discard take
      discard take
      pure (some .notIn)
    else pure none

def comparison : Reader Expr := do
  let first ← g.bitOrRule
  let rest ← many do
    match ← comparisonOp with
    | some o =>
      let e ← g.bitOrRule
      pure (some (o, e))
    | none => pure none
  pure (if rest.isEmpty then first else .compare first rest)

def inversion : Reader Expr := do
  let nots ← many do
    if ← tryKeyword "not" then pure (some ()) else pure none
  let e ← g.comparison
  pure (nots.foldl (fun e _ => .unary .not e) e)

def joinedBy (word : String) (make : List Expr → Expr) (operand : Reader Expr) :
    Reader Expr := do
  let first ← operand
  let rest ← many do
    if ← tryKeyword word then some <$> operand else pure none
  pure (if rest.isEmpty then first else make (first :: rest))

def disjunctionRule : Reader Expr :=
  joinedBy "or" .disjunction (joinedBy "and" .conjunction g.inversion)

structure ParameterList where
  positional : List Parameter := []
  regular : List Parameter := []
  rest : Option Parameter := none
  keyword : List Parameter := []
  others : Option Parameter := none
  starred : Bool := false
  slashed : Bool := false
  defaults : Bool := false

def parameterHint (typed starred : Bool) : Reader (Option Expr) := do
  if typed then
    if ← tryOp ":" then
      if starred then some <$> g.starExpression else some <$> g.expression
    else pure none
  else pure none

def plainParameter (ps : ParameterList) :
    Reader ParameterList := do
  let n ← name
  let hint ← g.parameterHint typed false
  let value ← if ← tryOp "=" then some <$> g.expression else pure none
  let p := Parameter.mk n hint value
  if ps.starred then pure { ps with keyword := ps.keyword ++ [p] }
  else if ps.defaults && value.isNone then failure
  else pure { ps with regular := ps.regular ++ [p], defaults := ps.defaults || value.isSome }

def parameter (ps : ParameterList) : Reader ParameterList := do
  if ps.others.isSome then failure
  else
    match ← peek with
    | some (.op "/") =>
      if ps.slashed || ps.starred || ps.regular.isEmpty then failure
      else
        discard take
        pure { ps with positional := ps.regular, regular := [], slashed := true }
    | some (.op "*") =>
      if ps.starred then failure
      else
        discard take
        match ← peek with
        | some (.name n) =>
          discard take
          let hint ← g.parameterHint typed true
          if isOp "=" (← peek) then failure
          else pure { ps with starred := true, rest := some (.mk n hint none) }
        | some (.op ",") => pure { ps with starred := true }
        | _ => failure
    | some (.op "**") =>
      if ps.starred && ps.rest.isNone && ps.keyword.isEmpty then failure
      else
        discard take
        let n ← name
        let hint ← g.parameterHint typed false
        if isOp "=" (← peek) then failure
        else pure { ps with others := some (.mk n hint none) }
    | _ => g.plainParameter typed ps

def nextParameter (close : String) (ps : ParameterList) :
    Reader (Option ParameterList) := do
  if isOp "," (← peek) && !isOp close (← peekSecond) then
    discard take
    some <$> g.parameter typed ps
  else pure none

def parameters (close : String) : Reader Parameters := do
  if isOp close (← peek) then pure .none
  else
    let first ← g.parameter typed {}
    let all ← fold (g.nextParameter typed close) first
    discard (tryOp ",")
    if !isOp close (← peek) then failure
    else if all.starred && all.rest.isNone && all.keyword.isEmpty then failure
    else pure (.mk all.positional all.regular all.rest all.keyword all.others)

def lambdaRule : Reader Expr := do
  keyword "lambda"
  let ps ← g.parameters false ":"
  op ":"
  let body ← g.expression
  pure (.lambda ps body)

def expressionRule : Reader Expr := do
  if isKeyword "lambda" (← peek) then g.lambdaRule
  else
    let e ← g.disjunctionRule
    if ← tryKeyword "if" then
      let test ← g.disjunctionRule
      keyword "else"
      let orelse ← g.expression
      pure (.conditional e test orelse)
    else pure e

def ofDepth : Nat → Grammar
  | 0 => empty
  | n + 1 =>
    let g := ofDepth n
    { expression := g.expressionRule
      disjunction := g.disjunctionRule
      bitOr := g.bitOrRule }

/-- How many levels of an expression a token can make: the fields of a text are read as expressions
of their own, and each level of these takes a character. -/
def levels (t : Token) : Nat :=
  match t.lexeme with
  | .quote q => if q.format then q.body.length + 3 else 1
  | _ => 1

def ofTokens (ts : List Token) : Grammar := ofDepth ((ts.map levels).foldr (· + ·) 2)

end Grammar

end AssetCatalog.Source
