import AssetCatalog.Value.Access

/-! The order of values of one kind. Values of different kinds have no order. -/

namespace AssetCatalog.Value

def unordered (a b : Value) : Fault :=
  .wrongKind s!"'<' not supported between instances of '{a.kindName}' and '{b.kindName}'"

def number? : Value → Option Binary64
  | .bool b => some (Binary64.ofInt (if b then 1 else 0))
  | .int n => some (Binary64.ofInt n)
  | .float x => some x
  | _ => none

def whole? : Value → Option Int
  | .bool b => some (if b then 1 else 0)
  | .int n => some n
  | _ => none

def scalarLess (a b : Value) : Except Fault Bool :=
  match whole? a, whole? b with
  | some m, some n => pure (m < n)
  | _, _ =>
    match number? a, number? b with
    | some x, some y => pure (Binary64.lt x y)
    | _, _ =>
      match a, b with
      | .text s, .text t => pure (s < t)
      | .bytes s, .bytes t => pure (s < t)
      | .date d, .date e => pure (d.ordinal < e.ordinal)
      | .moment t, .moment u =>
        match t.offset, u.offset with
        | some _, some _ => pure (t.instant < u.instant)
        | none, none => pure (t.localTime < u.localTime)
        | _, _ => throw (.wrongKind "can't compare offset-naive and offset-aware datetimes")
      | a, b => throw (unordered a b)

mutual

/-- Whether one value comes before another. Lists are compared at the first place where they
differ. -/
def less : Value → Value → Except Fault Bool
  | .list xs, .list ys => lessAll xs ys
  | .tuple xs, .tuple ys => lessAll xs ys
  | a, b => scalarLess a b

def lessAll : List Value → List Value → Except Fault Bool
  | [], [] => pure false
  | [], _ :: _ => pure true
  | _ :: _, [] => pure false
  | x :: xs, y :: ys => if x == y then lessAll xs ys else less x y

end

def placeFor (xs : List Value) (x : Value) : Nat → Nat → Nat → Except Fault Nat
  | 0, low, _ => pure low
  | fuel + 1, low, high =>
    if low < high then do
      let middle := low + (high - low) / 2
      let before ← x.less (xs.getD middle .null)
      if before then placeFor xs x fuel low middle else placeFor xs x fuel (middle + 1) high
    else pure low

def insertSorted (xs : List Value) (x : Value) : Except Fault (List Value) := do
  let i ← placeFor xs x (xs.length + 1) 0 xs.length
  pure (xs.take i ++ x :: xs.drop i)

def runFrom (down : Bool) (last : Value) : List Value → List Value →
    Except Fault (List Value × List Value)
  | acc, [] => pure (acc, [])
  | acc, x :: xs => do
    if (← x.less last) = down then runFrom down x (x :: acc) xs else pure (acc, x :: xs)

def firstRun : List Value → Except Fault (List Value × List Value)
  | x :: y :: rest => do
    let down ← y.less x
    let (run, rest) ← runFrom down y [y, x] rest
    pure (if down then run else run.reverse, rest)
  | xs => pure (xs, [])

def sorted (xs : List Value) : Except Fault (List Value) := do
  let (run, rest) ← firstRun xs
  rest.foldlM insertSorted run

end AssetCatalog.Value
