import AssetCatalog.Value.Basic

/-! The trees of Python source: expressions in full, and of statements what the catalogue looks at. -/

namespace AssetCatalog.Source

/-- A place in a text: a line, counted from one, and the bytes that precede it in that line. -/
structure Position where
  line : Nat
  column : Nat
deriving DecidableEq, Repr, Inhabited

structure Span where
  start : Position
  stop : Position
deriving DecidableEq, Repr, Inhabited

inductive BinaryOp where
  | add | sub | mul | matMul | div | mod | floorDiv | pow
  | shiftLeft | shiftRight | bitOr | bitXor | bitAnd
deriving DecidableEq, Repr, Inhabited

inductive UnaryOp where
  | invert | not | plus | minus
deriving DecidableEq, Repr, Inhabited

inductive CompareOp where
  | eq | ne | lt | le | gt | ge | is | isNot | isIn | notIn
deriving DecidableEq, Repr, Inhabited

mutual

inductive Expr where
  | name (id : String)
  | constant (value : Value) (marked : Bool) (span : Span)
  | joined (parts : List Part)
  | tuple (items : List Expr)
  | list (items : List Expr)
  | set (items : List Expr)
  | dict (entries : List (Option Expr × Expr))
  | unary (op : UnaryOp) (operand : Expr)
  | binary (left : Expr) (op : BinaryOp) (right : Expr)
  | compare (left : Expr) (rest : List (CompareOp × Expr))
  | conjunction (operands : List Expr)
  | disjunction (operands : List Expr)
  | conditional (body test orelse : Expr)
  | lambda (parameters : Parameters) (body : Expr)
  | attribute (value : Expr) (name : String)
  | subscript (value index : Expr)
  | slice (lower upper step : Option Expr)
  | call (function : Expr) (arguments : List Expr) (keywords : List (Option String × Expr))
  | starred (value : Expr)
  | assigned (target value : Expr)
  | await (value : Expr)
  | yield (value : Option Expr)
  | yieldFrom (value : Expr)
  | listOf (item : Expr) (clauses : List Clause)
  | setOf (item : Expr) (clauses : List Clause)
  | dictOf (key value : Expr) (clauses : List Clause)
  | generator (item : Expr) (clauses : List Clause)

inductive Part where
  | text (s : String)
  | field (value : Expr) (conversion : Option Char) (format : Option (List Part))

inductive Clause where
  | mk (asynchronous : Bool) (target source : Expr) (conditions : List Expr)

inductive Parameter where
  | mk (name : String) (hint : Option Expr) (default : Option Expr)

/-- The parameters of a function: positional only, either, variadic, keyword only, and for all other
keywords. -/
inductive Parameters where
  | mk (positional regular : List Parameter) (rest : Option Parameter)
      (keyword : List Parameter) (others : Option Parameter)

end

namespace Parameter

def name : Parameter → String
  | .mk n _ _ => n

def hint : Parameter → Option Expr
  | .mk _ a _ => a

def default : Parameter → Option Expr
  | .mk _ _ d => d

end Parameter

namespace Parameters

def positional : Parameters → List Parameter
  | .mk p _ _ _ _ => p

def regular : Parameters → List Parameter
  | .mk _ r _ _ _ => r

def keyword : Parameters → List Parameter
  | .mk _ _ _ k _ => k

def none : Parameters := .mk [] [] Option.none [] Option.none

end Parameters

instance : Inhabited Expr := ⟨.name ""⟩

inductive Stmt where
  | function (name : String) (decorators : List Expr) (parameters : Parameters)
      (returns : Option Expr) (body : List Stmt)
  | classDef (name : String) (body : List Stmt)
  | imports (line : Nat) (modules : List String)
  | importsFrom (line level : Nat) (module : Option String)
  | expression (value : Expr)
  | branch (body orelse : List Stmt)
  | loop (body orelse : List Stmt)
  | scope (body : List Stmt)
  | guarded (body : List Stmt) (handlers : List (List Stmt)) (orelse final : List Stmt)
  | choice (cases : List (List Stmt))
  | other
deriving Inhabited

end AssetCatalog.Source
