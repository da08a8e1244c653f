import AssetCatalog.Number.Binary64
import AssetCatalog.Calendar

/-! Values of documents and of literals. Mappings keep the order in which their keys first came. -/

namespace AssetCatalog

inductive Value where
  | null
  | bool (b : Bool)
  | int (n : Int)
  | float (x : Binary64)
  | imaginary (x : Binary64)
  | text (s : String)
  | bytes (bs : List UInt8)
  | date (d : Date)
  | moment (t : Moment)
  | clock (t : Clock)
  | ellipsis
  | list (xs : List Value)
  | tuple (xs : List Value)
  | set (xs : List Value)
  | map (entries : List (Value × Value))
deriving Inhabited, Repr

namespace Value

inductive Numeric where
  | whole (n : Int)
  | real (x : Binary64)

def numeric? : Value → Option Numeric
  | .bool b => some (.whole (if b then 1 else 0))
  | .int n => some (.whole n)
  | .float x => some (.real x)
  | _ => none

def Numeric.same : Numeric → Numeric → Bool
  | .whole m, .whole n => m = n
  | .real x, .real y => x.same y
  | .whole n, .real x => x.sameInt n
  | .real x, .whole n => x.sameInt n

/-- Whether two moments are equal: by instant if both have an offset, by clock if neither has. -/
def sameMoment (t u : Moment) : Bool :=
  match t.offset, u.offset with
  | some _, some _ => t.instant = u.instant
  | none, none => t.localTime = u.localTime
  | _, _ => false

/-- Equality of values that hold no others: numbers are compared by value, whatever their kind. -/
def sameScalar (a b : Value) : Bool :=
  match numeric? a, numeric? b with
  | some m, some n => m.same n
  | none, none =>
    match a, b with
    | .null, .null => true
    | .imaginary x, .imaginary y => x.same y
    | .text s, .text t => s = t
    | .bytes s, .bytes t => s = t
    | .date d, .date e => d = e
    | .moment t, .moment u => sameMoment t u
    | .clock t, .clock u => t = u
    | .ellipsis, .ellipsis => true
    | _, _ => false
  | _, _ => false

mutual

/-- Equality of values. Mappings and sets are compared without regard to order. -/
def same : Value → Value → Bool
  | .list xs, .list ys => sameList xs ys
  | .tuple xs, .tuple ys => sameList xs ys
  | .set xs, .set ys => xs.length = ys.length && sameMembers xs ys
  | .map xs, .map ys => xs.length = ys.length && sameEntries xs ys
  | a, b => sameScalar a b

def sameList : List Value → List Value → Bool
  | [], [] => true
  | x :: xs, y :: ys => same x y && sameList xs ys
  | _, _ => false

def sameMembers : List Value → List Value → Bool
  | [], _ => true
  | x :: xs, ys => ys.any (same x) && sameMembers xs ys

def sameEntries : List (Value × Value) → List (Value × Value) → Bool
  | [], _ => true
  | (k, v) :: xs, ys => ys.any (fun e => same k e.1 && same v e.2) && sameEntries xs ys

end

instance : BEq Value := ⟨same⟩

def lookup (key : Value) : List (Value × Value) → Option Value
  | [] => none
  | (k, v) :: rest => if k == key then some v else lookup key rest

def named (name : String) (entries : List (Value × Value)) : Option Value :=
  lookup (.text name) entries

def put (key value : Value) : List (Value × Value) → List (Value × Value)
  | [] => [(key, value)]
  | (k, v) :: rest => if k == key then (k, value) :: rest else (k, v) :: put key value rest

def erase (key : Value) (entries : List (Value × Value)) : List (Value × Value) :=
  entries.filter fun e => !(e.1 == key)

/-- Whether two values are one member of a set: equal values are, and so is the number that equals
none. -/
def sameMember : Value → Value → Bool
  | .float .notANumber, .float .notANumber => true
  | a, b => a == b

def addMember (x : Value) (xs : List Value) : List Value :=
  if xs.any (sameMember x) then xs else xs ++ [x]

def truthy : Value → Bool
  | .null => false
  | .bool b => b
  | .int n => n ≠ 0
  | .float x => !x.isZero
  | .imaginary x => !x.isZero
  | .text s => !s.isEmpty
  | .bytes bs => !bs.isEmpty
  | .list xs => !xs.isEmpty
  | .tuple xs => !xs.isEmpty
  | .set xs => !xs.isEmpty
  | .map es => !es.isEmpty
  | _ => true

mutual

def hashable : Value → Bool
  | .list _ => false
  | .set _ => false
  | .map _ => false
  | .tuple xs => hashableAll xs
  | _ => true

def hashableAll : List Value → Bool
  | [] => true
  | x :: xs => hashable x && hashableAll xs

end

def kindName : Value → String
  | .null => "NoneType"
  | .bool _ => "bool"
  | .int _ => "int"
  | .float _ => "float"
  | .imaginary _ => "complex"
  | .text _ => "str"
  | .bytes _ => "bytes"
  | .date _ => "date"
  | .moment _ => "datetime"
  | .clock _ => "time"
  | .ellipsis => "ellipsis"
  | .list _ => "list"
  | .tuple _ => "tuple"
  | .set _ => "set"
  | .map _ => "dict"

def className (v : Value) : String :=
  match v with
  | .date _ | .moment _ | .clock _ => s!"<class 'datetime.{v.kindName}'>"
  | v => s!"<class '{v.kindName}'>"

def isText : Value → Bool
  | .text _ => true
  | _ => false

def isMap : Value → Bool
  | .map _ => true
  | _ => false

def isList : Value → Bool
  | .list _ => true
  | _ => false

end Value

end AssetCatalog
