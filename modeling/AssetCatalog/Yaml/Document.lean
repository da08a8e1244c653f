import AssetCatalog.Yaml.Form
import AssetCatalog.Yaml.Kind
import AssetCatalog.Yaml.Node

/-! The values of YAML documents. -/

namespace AssetCatalog.Yaml

namespace Node

def tagName : Node → String
  | .scalar (.explicit t) _ _ => t
  | .scalar .implied s decides => if decides then impliedTag s else standard "str"
  | .sequence (.explicit t) _ => t
  | .sequence .implied _ => standard "seq"
  | .mapping (.explicit t) _ => t
  | .mapping .implied _ => standard "map"

def isMerge (n : Node) : Bool := n.tagName = standard "merge"

def isScalar : Node → Bool
  | .scalar .. => true
  | _ => false

/-- The text of a scalar; a mapping stands for the text under its key `=`. -/
def scalarText : Node → Except Fault String
  | .scalar _ s _ => pure s
  | .mapping _ es => valueText es
  | .sequence .. => throw .yaml
where
  valueText : List (Node × Node) → Except Fault String
    | [] => throw .yaml
    | (k, v) :: es => if k.tagName = standard "value" then scalarText v else valueText es

def isScalarTag (t : String) : Bool :=
  ["str", "null", "bool", "int", "float", "timestamp", "binary"].any fun n => t = standard n

def leafValue (n : Node) : Except Fault Value := do
  let t := n.tagName
  if isScalarTag t then
    let s ← n.scalarText
    if t = standard "timestamp" && !n.isScalar then throw .wrongKind else scalarValue t s
  else throw .yaml

inductive Filling where
  | list
  | map
  | set
  | pairs

def filling? (t : String) : Option Filling :=
  if t = standard "seq" then some .list
  else if t = standard "map" then some .map
  else if t = standard "set" then some .set
  else if t = standard "omap" || t = standard "pairs" then some .pairs
  else none

mutual

def form : Node → Form
  | .scalar t s d =>
    let n := Node.scalar t s d
    if (filling? n.tagName).isSome then .broken else .leaf n.leafValue
  | .sequence t xs =>
    let n := Node.sequence t xs
    match filling? n.tagName with
    | some .list => .list (forms xs)
    | some .pairs => .pairs (pairForms xs)
    | some _ => .broken
    | none => .leaf n.leafValue
  | .mapping t es =>
    let n := Node.mapping t es
    match filling? n.tagName, entryForms es with
    | some .map, some (merged, own) => .map (merged ++ own)
    | some .set, some (merged, own) => .set (merged ++ own)
    | some _, _ => .broken
    | none, _ => .leaf n.leafValue

def forms : List Node → List Form
  | [] => []
  | x :: xs => form x :: forms xs

def pairForms : List Node → List (Form × Form)
  | [] => []
  | .mapping _ [(k, v)] :: xs => (form k, form v) :: pairForms xs
  | _ :: xs => (.leaf (.error .yaml), .broken) :: pairForms xs

/-- The entries that merge keys bring, and the others. A key `=` stands for itself. -/
def entryForms : List (Node × Node) → Option (List (Form × Form) × List (Form × Form))
  | [] => some ([], [])
  | (k, v) :: es => do
    let (merged, own) ← entryForms es
    if k.isMerge then
      let brought ← mergedForms v
      some (brought ++ merged, own)
    else if k.tagName = standard "value" then
      some (merged, (.leaf (k.scalarText.map .text), form v) :: own)
    else some (merged, (form k, form v) :: own)

/-- The entries that a merge key brings: those of a mapping, or of a list of mappings of which the
first counts most. -/
def mergedForms : Node → Option (List (Form × Form))
  | .mapping _ es => (entryForms es).map fun (merged, own) => merged ++ own
  | .sequence _ xs => (mergedLists xs).map fun ess => ess.reverse.flatten
  | .scalar .. => none

def mergedLists : List Node → Option (List (List (Form × Form)))
  | [] => some []
  | .mapping _ es :: xs => do
    let (merged, own) ← entryForms es
    let ess ← mergedLists xs
    some ((merged ++ own) :: ess)
  | _ :: _ => none

end

def document (n : Node) : Except Fault Value := n.form.value

end Node

def documentsFrom : Nat → Bool → List Token → Except Fault (List Value)
  | 0, _, _ => throw .yaml
  | fuel + 1, first, tokens => do
    match ← Node.nextDocument first tokens with
    | none => pure []
    | some (n, rest) =>
      let v ← n.document
      let vs ← documentsFrom fuel false rest
      pure (v :: vs)

def loadAll (s : String) : Except Fault (List Value) :=
  let tokens := Token.ofText s
  documentsFrom (tokens.length + 2) true tokens

def load (s : String) : Except Fault Value := do
  match ← Node.nextDocument true (Token.ofText s) with
  | none => pure .null
  | some (n, rest) =>
    match ← Node.nextDocument false rest with
    | none => n.document
    | some _ => throw .yaml

end AssetCatalog.Yaml
