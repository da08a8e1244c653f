import AssetCatalog.Fault
import AssetCatalog.Value.Basic

/-! What the tags of a document make of its nodes. A scalar has its value, or none, as soon as it is met;
a collection is filled only after all that were met before it. So of several faults the one nearest to
the root counts. -/

namespace AssetCatalog.Yaml

inductive Form where
  | leaf (value : Except Fault Value)
  | list (items : List Form)
  | map (entries : List (Form × Form))
  | set (entries : List (Form × Form))
  | pairs (items : List (Form × Form))
  | broken

namespace Form

def meet : Form → Except Fault (List Form)
  | .leaf (.ok _) => pure []
  | .leaf (.error e) => throw e
  | f => pure [f]

def isKey : Form → Bool
  | .leaf (.ok v) => v.hashable
  | _ => false

def meetItem (f : Form × Form) : Except Fault (List Form) := do
  let first ← meet f.1
  let second ← meet f.2
  pure (first ++ second)

def meetEntry (e : Form × Form) : Except Fault (List Form) := do
  let _ ← meet e.1
  if e.1.isKey then meet e.2 else throw .yaml

def fill : Form → Except Fault (List Form)
  | .leaf _ => pure []
  | .list xs => (xs.mapM meet).map List.flatten
  | .map es => (es.mapM meetEntry).map List.flatten
  | .set es => (es.mapM meetEntry).map List.flatten
  | .pairs ps => (ps.mapM meetItem).map List.flatten
  | .broken => throw .yaml

mutual

def depth : Form → Nat
  | .leaf _ => 0
  | .list xs => depthOfList xs + 1
  | .map es => depthOfPairs es + 1
  | .set es => depthOfPairs es + 1
  | .pairs ps => depthOfPairs ps + 1
  | .broken => 1

def depthOfList : List Form → Nat
  | [] => 0
  | x :: xs => max (depth x) (depthOfList xs)

def depthOfPairs : List (Form × Form) → Nat
  | [] => 0
  | (x, y) :: ps => max (max (depth x) (depth y)) (depthOfPairs ps)

end

/-- Fills collections, and then those that were found in them. The first argument bounds the depth. -/
def fillAll : Nat → List Form → Except Fault Unit
  | _, [] => pure ()
  | 0, _ :: _ => throw .yaml
  | fuel + 1, fs => do
    let inside ← fs.mapM fill
    fillAll fuel inside.flatten

def check (f : Form) : Except Fault Unit := do
  let waiting ← meet f
  fillAll f.depth waiting

mutual

def content : Form → Value
  | .leaf (.ok v) => v
  | .leaf (.error _) => .null
  | .list xs => .list (contents xs)
  | .map es => .map (entries es [])
  | .set es => .set ((entries es []).map (·.1))
  | .pairs ps => .list (tuples ps)
  | .broken => .null

def contents : List Form → List Value
  | [] => []
  | x :: xs => content x :: contents xs

/-- The entries of a mapping: a later one of the same key gives its value to the earlier one. -/
def entries : List (Form × Form) → List (Value × Value) → List (Value × Value)
  | [], acc => acc
  | (k, v) :: es, acc => entries es (Value.put (content k) (content v) acc)

def tuples : List (Form × Form) → List Value
  | [] => []
  | (k, v) :: ps => .tuple [content k, content v] :: tuples ps

end

def value (f : Form) : Except Fault Value := do
  f.check
  pure f.content

end Form

end AssetCatalog.Yaml
