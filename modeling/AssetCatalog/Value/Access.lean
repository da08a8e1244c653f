import AssetCatalog.Value.Display

/-! Steps into values of unknown kind; each names the kinds that it takes. -/

namespace AssetCatalog.Value

def get (name : String) : Value → Except Fault (Option Value)
  | .map es => pure (named name es)
  | v => throw (.noMember s!"'{v.kindName}' object has no attribute 'get'")

def getOrNull (name : String) (v : Value) : Except Fault Value := do
  let x ← v.get name
  pure (x.getD .null)

def orElse (v w : Value) : Value := if v.truthy then v else w

def mentions (name : String) : Value → Except Fault Bool
  | .text s => pure (Text.contains s name)
  | .map es => pure (named name es).isSome
  | .list xs => pure (xs.contains (.text name))
  | .tuple xs => pure (xs.contains (.text name))
  | .set xs => pure (xs.contains (.text name))
  | _ => throw .wrongKind

def need (name : String) : Value → Except Fault Value
  | .map es => ((named name es).map pure).getD (throw .noKey)
  | _ => throw .wrongKind

def visits : Value → Except Fault (List Value)
  | .list xs => pure xs
  | .tuple xs => pure xs
  | .set xs => pure xs
  | .map es => pure (es.map (·.1))
  | .text s => pure (s.toList.map fun c => .text (String.singleton c))
  | .bytes bs => pure (bs.map fun b => .int b.toNat)
  | _ => throw .wrongKind

def asText : Value → Except Fault String
  | .text s => pure s
  | _ => throw .wrongKind

def joinSet (x : Value) (xs : List Value) : Except Fault (List Value) :=
  if x.hashable then pure (addMember x xs)
  else throw (.wrongKind s!"unhashable type: '{x.kindName}'")

/-- The order in which sets are shown: texts first by code point, then other values by their exact
texts. -/
def memberLe : Value → Value → Bool
  | .text a, .text b => Text.le a b
  | .text _, _ => true
  | _, .text _ => false
  | a, b => Text.le a.exact b.exact

def sortMembers (xs : List Value) : List Value := xs.mergeSort memberLe

end AssetCatalog.Value
