import AssetCatalog.Run

/-! Tables of data, the flows that make new rows from them, and the engine that runs flows. -/

namespace AssetCatalog.Generation

structure Frame where
  rows : Nat := 0
  columns : List Value := []
deriving Inhabited

structure Flow where
  name : Value := .text "flow"
  version : Value := .text "1.0"
  blocks : Nat := 1
  needsModel : Bool := false
  datasetErrors : List Value := []
  output : Frame := {}
  loadError : Option String := none
  path : String := "found.yaml"
  lookupError : Option String := none
  modelError : Option String := none
  runError : Option String := none
deriving Inhabited

structure Engine where
  input : Frame := {}
  inputError : Option String := none
  flow : Flow := {}
  elapsed : Binary64 := .zero
  timeText : String → String

def Engine.deliver {α : Type} (result : α) : Option String → Run α
  | some m => throw (.failed m)
  | none => pure result

def Engine.read (e : Engine) (path : String) : Run Frame := do
  Run.record { name := "read_json", positional := [.text path], named := [("lines", .bool true)] }
  Engine.deliver e.input e.inputError

/-- Writes a table to a file, one record a line; of the records their number is kept. -/
def Frame.write (f : Frame) (path : String) : Run Unit := do
  Run.record { name := "to_json", positional := [.text path],
               named := [("lines", .bool true), ("orient", .text "records")] }
  Run.writeText (Path.ofText path) s!"{f.rows} rows\n"

end AssetCatalog.Generation
