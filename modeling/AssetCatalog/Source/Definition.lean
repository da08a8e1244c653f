import AssetCatalog.Source.Statement
import AssetCatalog.Docstring.Layout

/-! Function definitions in source: all of them, outer ones first, and their documentation. -/

namespace AssetCatalog.Source

structure Definition where
  name : String
  decorators : List Expr
  parameters : Parameters
  returns : Option Expr
  body : List Stmt

namespace Stmt

mutual

def definitionsAt (depth : Nat) : Stmt → List (Nat × Definition)
  | .function name decorators parameters returns body =>
    (depth, ⟨name, decorators, parameters, returns, body⟩) :: definitionsIn (depth + 1) body
  | .classDef _ body => definitionsIn (depth + 1) body
  | .branch body orelse => definitionsIn (depth + 1) body ++ definitionsIn (depth + 1) orelse
  | .loop body orelse => definitionsIn (depth + 1) body ++ definitionsIn (depth + 1) orelse
  | .scope body => definitionsIn (depth + 1) body
  | .guarded body handlers orelse final =>
    definitionsIn (depth + 1) body ++ definitionsInAll (depth + 2) handlers ++
      definitionsIn (depth + 1) orelse ++ definitionsIn (depth + 1) final
  | .choice cases => definitionsInAll (depth + 2) cases
  | .imports .. => []
  | .importsFrom .. => []
  | .expression _ => []
  | .other => []

def definitionsIn (depth : Nat) : List Stmt → List (Nat × Definition)
  | [] => []
  | s :: ss => definitionsAt depth s ++ definitionsIn depth ss

def definitionsInAll (depth : Nat) : List (List Stmt) → List (Nat × Definition)
  | [] => []
  | b :: bs => definitionsIn depth b ++ definitionsInAll depth bs

end

/-- All definitions: those of smaller depth first, and those of one depth as they stand. -/
def definitions (body : List Stmt) : List Definition :=
  ((definitionsIn 0 body).mergeSort fun a b => a.1 ≤ b.1).map (·.2)

end Stmt

def Definition.docstring (d : Definition) : Option String :=
  match d.body with
  | .expression (.constant (.text s) _ _) :: _ => some (Docstring.unindent s)
  | _ => none

end AssetCatalog.Source
