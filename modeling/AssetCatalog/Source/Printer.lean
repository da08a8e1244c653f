import AssetCatalog.Source.Tree
import AssetCatalog.Value.Display

/-! The text of an expression: one layout for each tree, with parentheses where they are needed. -/

namespace AssetCatalog.Source

abbrev Binding := Nat

namespace Binding

def assigned : Binding := 1
def tuple : Binding := 2
def yielded : Binding := 3
def test : Binding := 4
def disjunction : Binding := 5
def conjunction : Binding := 6
def inversion : Binding := 7
def comparison : Binding := 8
def bitOr : Binding := 9
def bitXor : Binding := 10
def bitAnd : Binding := 11
def shift : Binding := 12
def sum : Binding := 13
def product : Binding := 14
def sign : Binding := 15
def power : Binding := 16
def await : Binding := 17
def atom : Binding := 18

def next (b : Binding) : Binding := min (b + 1) atom

end Binding

def BinaryOp.text : BinaryOp → String
  | .add => "+"
  | .sub => "-"
  | .mul => "*"
  | .matMul => "@"
  | .div => "/"
  | .mod => "%"
  | .floorDiv => "//"
  | .pow => "**"
  | .shiftLeft => "<<"
  | .shiftRight => ">>"
  | .bitOr => "|"
  | .bitXor => "^"
  | .bitAnd => "&"

def BinaryOp.binding : BinaryOp → Binding
  | .add | .sub => .sum
  | .mul | .matMul | .div | .mod | .floorDiv => .product
  | .pow => .power
  | .shiftLeft | .shiftRight => .shift
  | .bitOr => .bitOr
  | .bitXor => .bitXor
  | .bitAnd => .bitAnd

def UnaryOp.text : UnaryOp → String
  | .invert => "~"
  | .not => "not "
  | .plus => "+"
  | .minus => "-"

def UnaryOp.binding : UnaryOp → Binding
  | .not => .inversion
  | _ => .sign

def CompareOp.text : CompareOp → String
  | .eq => "=="
  | .ne => "!="
  | .lt => "<"
  | .le => "<="
  | .gt => ">"
  | .ge => ">="
  | .is => "is"
  | .isNot => "is not"
  | .isIn => "in"
  | .notIn => "not in"

namespace Printer

variable (s : String)

def allQuotes : List String := ["'", "\"", "\"\"\"", "'''"]

def isLong (q : String) : Bool := q.length = 3

def escapeChar (blanks : Bool) (c : Char) : String :=
  if !blanks && (c = '\n' || c = '\t') then String.singleton c
  else if c = '\\' || !Text.isPrintable c then Text.quotedChar '\\' c
  else String.singleton c

def withoutEnds : String := String.ofList (s.toList.drop 1).dropLast

/-- The inner text of a literal with as few escapes as possible, and the quotes that can stand around
it; line ends and tabs are escaped if `blanks`. -/
def fewEscapes (quotes : List String) (blanks : Bool) : String × List String :=
  let escaped := String.join (s.toList.map (escapeChar blanks))
  let possible := if Text.contains escaped "\n" then quotes.filter isLong else quotes
  let possible := possible.filter fun q => !Text.contains escaped q
  if possible.isEmpty then
    let form := Text.quoted s
    let q := String.ofList (form.toList.take 1)
    (withoutEnds form, [(quotes.find? fun t => Text.contains t q).getD q])
  else
    match escaped.toList.getLast? with
    | none => (escaped, possible)
    | some last =>
      let starts (q : String) : Bool := q.toList.head? = some last
      let sorted := possible.filter (!starts ·) ++ possible.filter starts
      if (sorted.head?.map starts).getD false then
        (String.ofList (escaped.toList.dropLast ++ ['\\', last]), sorted)
      else (escaped, sorted)

def inQuotes (quotes : List String) : String :=
  let q := quotes.head?.getD "'"
  q ++ s ++ q

def plainLiteral : String :=
  let (inner, quotes) := fewEscapes s allQuotes false
  inQuotes inner quotes

def joinedLiteral (parts : List (String × Bool)) : String :=
  let fitted := parts.foldlM (fun (acc : List String × List String) part =>
    let (inner, quotes) := fewEscapes part.1 acc.2 part.2
    if quotes.any acc.2.contains then some (acc.1 ++ [inner], quotes) else none)
    (([], allQuotes) : List String × List String)
  match fitted with
  | some (inner, quotes) => inQuotes (String.join inner) quotes
  | none =>
    let inner := parts.map fun part =>
      String.ofList (((Text.quoted ("\"" ++ part.1)).toList.drop 2).dropLast)
    inQuotes (String.join inner) ["'''"]

def realText : String :=
  Text.replace "nan" "(1e309-1e309)" (Text.replace "inf" "1e309" s)

def literal (plain : Bool) : Value → Except Fault String
  | .float x => pure (realText (Value.float x).exact)
  | .imaginary x => pure (realText (Value.imaginary x).exact)
  | .ellipsis => pure "..."
  | .text s => pure (if plain then plainLiteral s else Text.quoted s)
  | v => v.exactText

def parens (condition : Bool) (s : String) : String := if condition then "(" ++ s ++ ")" else s

def itemsText : List String → String
  | [s] => s ++ ","
  | ss => Text.join ", " ss

def doubleBraces : String :=
  Text.replace "\x7d" "\x7d\x7d" (Text.replace "\x7b" "\x7b\x7b" s)

def isInteger : Expr → Bool
  | .constant (.int _) _ _ => true
  | .constant (.bool _) _ _ => true
  | _ => false

def isPlain : Part → Bool
  | .text _ => true
  | .field .. => false

mutual

/-- The text of an expression in surroundings that bind as `b` says; `plain` holds within replacement
fields, where no escapes can stand. -/
def expr (b : Binding) (plain : Bool) : Expr → Except Fault String
  | .name n => pure n
  | .constant v marked _ => do
    let s ← literal plain v
    pure ((if marked then "u" else "") ++ s)
  | .joined parts => do
    let inner ← joinedParts parts
    pure <| "f" ++ if plain then plainLiteral (String.join inner)
      else joinedLiteral (inner.zip (parts.map isPlain))
  | .tuple items => do
    let ss ← exprs .test plain items
    pure (parens (items.isEmpty || .tuple < b) (itemsText ss))
  | .list items => do
    let ss ← exprs .test plain items
    pure ("[" ++ Text.join ", " ss ++ "]")
  | .set items => do
    let ss ← exprs .test plain items
    pure ("\x7b" ++ Text.join ", " ss ++ "\x7d")
  | .dict es => do
    let ss ← entries plain es
    pure ("\x7b" ++ Text.join ", " ss ++ "\x7d")
  | .unary op e => do
    let s ← expr op.binding plain e
    pure (parens (op.binding < b) (op.text ++ s))
  | .binary l op r => do
    let (lb, rb) := if op = .pow then (op.binding.next, op.binding) else (op.binding, op.binding.next)
    let ls ← expr lb plain l
    let rs ← expr rb plain r
    pure (parens (op.binding < b) (ls ++ " " ++ op.text ++ " " ++ rs))
  | .compare l rest => do
    let s ← expr Binding.comparison.next plain l
    let ss ← comparisons plain rest
    pure (parens (.comparison < b) (s ++ ss))
  | .conjunction es => do
    let ss ← operands plain .conjunction es
    pure (parens (.conjunction < b) (Text.join " and " ss))
  | .disjunction es => do
    let ss ← operands plain .disjunction es
    pure (parens (.disjunction < b) (Text.join " or " ss))
  | .conditional body test orelse => do
    let x ← expr Binding.test.next plain body
    let y ← expr Binding.test.next plain test
    let z ← expr .test plain orelse
    pure (parens (.test < b) (x ++ " if " ++ y ++ " else " ++ z))
  | .lambda ps body => do
    let p ← parameters plain ps
    let s ← expr .test plain body
    let front := if p = "" then "lambda" else "lambda " ++ p
    pure (parens (.test < b) (front ++ ": " ++ s))
  | .attribute e n => do
    let s ← expr .atom plain e
    pure (s ++ (if isInteger e then " " else "") ++ "." ++ n)
  | .subscript e (.tuple (i :: is)) => do
    let s ← expr .atom plain e
    let first ← expr .test plain i
    let more ← exprs .test plain is
    pure (s ++ "[" ++ itemsText (first :: more) ++ "]")
  | .subscript e i => do
    let s ← expr .atom plain e
    let t ← expr .test plain i
    pure (s ++ "[" ++ t ++ "]")
  | .slice lower upper step => do
    let l ← exprOr plain lower
    let u ← exprOr plain upper
    let s ← exprOr plain step
    pure (l ++ ":" ++ u ++ if step.isSome then ":" ++ s else "")
  | .call f args kws => do
    let s ← expr .atom plain f
    let as ← exprs .test plain args
    let ks ← keywords plain kws
    pure (s ++ "(" ++ Text.join ", " (as ++ ks) ++ ")")
  | .starred e => do
    let s ← expr .bitOr plain e
    pure ("*" ++ s)
  | .assigned t v => do
    let x ← expr .atom plain t
    let y ← expr .atom plain v
    pure (parens (.assigned < b) (x ++ " := " ++ y))
  | .await e => do
    let s ← expr .atom plain e
    pure (parens (.await < b) ("await " ++ s))
  | .yield none => pure (parens (.yielded < b) "yield")
  | .yield (some e) => do
    let s ← expr .atom plain e
    pure (parens (.yielded < b) ("yield " ++ s))
  | .yieldFrom e => do
    let s ← expr .atom plain e
    pure (parens (.yielded < b) ("yield from " ++ s))
  | .listOf e cs => do
    let s ← expr .test plain e
    let t ← clauses plain cs
    pure ("[" ++ s ++ t ++ "]")
  | .setOf e cs => do
    let s ← expr .test plain e
    let t ← clauses plain cs
    pure ("\x7b" ++ s ++ t ++ "\x7d")
  | .dictOf k v cs => do
    let s ← expr .test plain k
    let u ← expr .test plain v
    let t ← clauses plain cs
    pure ("\x7b" ++ s ++ ": " ++ u ++ t ++ "\x7d")
  | .generator e cs => do
    let s ← expr .test plain e
    let t ← clauses plain cs
    pure ("(" ++ s ++ t ++ ")")

def exprs (b : Binding) (plain : Bool) : List Expr → Except Fault (List String)
  | [] => pure []
  | e :: es => do
    let s ← expr b plain e
    let ss ← exprs b plain es
    pure (s :: ss)

def exprOr (plain : Bool) : Option Expr → Except Fault String
  | none => pure ""
  | some e => expr .test plain e

def operands (plain : Bool) (b : Binding) : List Expr → Except Fault (List String)
  | [] => pure []
  | e :: es => do
    let s ← expr b.next plain e
    let ss ← operands plain b.next es
    pure (s :: ss)

def entries (plain : Bool) : List (Option Expr × Expr) → Except Fault (List String)
  | [] => pure []
  | (none, v) :: es => do
    let s ← expr .bitOr plain v
    let ss ← entries plain es
    pure (("**" ++ s) :: ss)
  | (some k, v) :: es => do
    let s ← expr .test plain k
    let t ← expr .test plain v
    let ss ← entries plain es
    pure ((s ++ ": " ++ t) :: ss)

def comparisons (plain : Bool) : List (CompareOp × Expr) → Except Fault String
  | [] => pure ""
  | (op, e) :: rest => do
    let s ← expr Binding.comparison.next plain e
    let ss ← comparisons plain rest
    pure (" " ++ op.text ++ " " ++ s ++ ss)

def keywords (plain : Bool) : List (Option String × Expr) → Except Fault (List String)
  | [] => pure []
  | (n, e) :: rest => do
    let s ← expr .test plain e
    let ss ← keywords plain rest
    pure (((n.map (· ++ "=")).getD "**" ++ s) :: ss)

def clauses (plain : Bool) : List Clause → Except Fault String
  | [] => pure ""
  | .mk asynchronous target source conditions :: rest => do
    let t ← expr .tuple plain target
    let s ← expr Binding.test.next plain source
    let cs ← exprs Binding.test.next plain conditions
    let more ← clauses plain rest
    let front := if asynchronous then " async for " else " for "
    pure (front ++ t ++ " in " ++ s ++ String.join (cs.map (" if " ++ ·)) ++ more)

def parameter (plain : Bool) : Parameter → Except Fault String
  | .mk n hint value => do
    let h ← exprOr plain hint
    let v ← exprOr plain value
    pure (n ++ (if hint.isSome then ": " ++ h else "") ++ if value.isSome then "=" ++ v else "")

def parameterList (plain : Bool) : List Parameter → Except Fault (List String)
  | [] => pure []
  | p :: ps => do
    let s ← parameter plain p
    let ss ← parameterList plain ps
    pure (s :: ss)

def parameterOr (plain : Bool) : Option Parameter → Except Fault (List String)
  | none => pure []
  | some p => do
    let s ← parameter plain p
    pure [s]

def parameters (plain : Bool) : Parameters → Except Fault String
  | .mk positional regular rest keyword others => do
    let ps ← parameterList plain positional
    let rs ← parameterList plain regular
    let v ← parameterOr plain rest
    let ks ← parameterList plain keyword
    let os ← parameterOr plain others
    let slash := if ps.isEmpty then [] else ["/"]
    let star := if v.isEmpty && ks.isEmpty then [] else ["*" ++ v.head?.getD ""]
    pure (Text.join ", " (ps ++ slash ++ rs ++ star ++ ks ++ os.map ("**" ++ ·)))

def part : Part → Except Fault String
  | .text s => pure (doubleBraces s)
  | .field value conversion format => do
    let s ← expr Binding.test.next true value
    let spec ← formatText format
    if Text.contains s "\\" then
      throw (.invalid "Unable to avoid backslash in f-string expression part")
    else
      let blank := if Text.startsWith s "\x7b" then " " else ""
      let mark := (conversion.map fun c => String.ofList ['!', c]).getD ""
      pure ("\x7b" ++ blank ++ s ++ mark ++ spec ++ "\x7d")

def formatText : Option (List Part) → Except Fault String
  | none => pure ""
  | some parts => do
    let inner ← joinedParts parts
    pure (":" ++ String.join inner)

def joinedParts : List Part → Except Fault (List String)
  | [] => pure []
  | p :: ps => do
    let s ← part p
    let ss ← joinedParts ps
    pure (s :: ss)

end

end Printer

def Expr.print (e : Expr) : Except Fault String := Printer.expr Binding.test false e

end AssetCatalog.Source
