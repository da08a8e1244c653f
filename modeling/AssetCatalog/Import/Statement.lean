import AssetCatalog.Source.Statement

/-! The imports that run when a module is loaded: those outside functions and classes. -/

namespace AssetCatalog.Import

open Source

def topName (name : String) : String := (Text.split "." name).headD ""

structure TopImport where
  package : String
  line : Nat
deriving DecidableEq, Repr, Inhabited

mutual

def ofStmt : Stmt → List TopImport
  | .imports line modules => modules.map fun m => ⟨topName m, line⟩
  | .importsFrom line level (some m) => if level = 0 && m ≠ "" then [⟨topName m, line⟩] else []
  | .importsFrom _ _ none => []
  | .branch body orelse => ofBlock body ++ ofBlock orelse
  | .loop body orelse => ofBlock body ++ ofBlock orelse
  | .scope body => ofBlock body
  | .guarded body handlers orelse final =>
    ofBlock body ++ ofBlocks handlers ++ ofBlock orelse ++ ofBlock final
  | .choice cases => ofBlocks cases
  | .function .. => []
  | .classDef .. => []
  | .expression _ => []
  | .other => []

def ofBlock : List Stmt → List TopImport
  | [] => []
  | s :: ss => ofStmt s ++ ofBlock ss

def ofBlocks : List (List Stmt) → List TopImport
  | [] => []
  | b :: bs => ofBlock b ++ ofBlocks bs

end

end AssetCatalog.Import
