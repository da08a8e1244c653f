import AssetCatalog.Docstring.Layout
import AssetCatalog.Fault

/-! Documentation texts: a short and a long description, and notes on parameters and results. -/

namespace AssetCatalog

inductive Note where
  | parameter (name description : String)
  | result (description : Option String)
  | other
deriving DecidableEq, Repr, Inhabited

structure Docstring where
  short : Option String := none
  long : Option String := none
  notes : List Note := []
deriving DecidableEq, Repr, Inhabited

namespace Docstring

def nonEmpty (s : String) : Option String := if s = "" then none else some s

def ofDescription (s : String) : Docstring :=
  match Text.cut? "\n" s with
  | some (first, rest) => { short := nonEmpty first, long := nonEmpty (Text.trim rest) }
  | none => { short := nonEmpty s }

def unindentRest (s : String) : String :=
  match Text.cut? "\n" s with
  | some (first, rest) => first ++ "\n" ++ unindent rest
  | none => s

def parameterWords : List String :=
  ["param", "parameter", "arg", "argument", "attribute", "key", "keyword"]

def resultWords : List String := ["return", "returns", "yield", "yields"]

def errorWords : List String := ["raises", "raise", "except", "exception"]

end Docstring

end AssetCatalog
