import AssetCatalog.Freshness.Scan
import AssetCatalog.Json

/-! The report on the ages of assets, as lines and as JSON. -/

namespace AssetCatalog.Freshness

def nameWidth : Nat := 40

/-- The cell for a name. Texts stand at the left and numbers at the right; of a date only the width
itself is left, and other values have no cell. -/
def nameCell : Value → Except Fault String
  | .text s => pure (Text.padRight nameWidth s)
  | .bool b => pure (Text.padLeft nameWidth (if b then "1" else "0"))
  | .int n => Text.padLeft nameWidth <$> (Value.int n).plainText
  | .float x => pure (Text.padLeft nameWidth x.text)
  | .date _ | .moment _ => pure (toString nameWidth)
  | v => throw (.wrongKind s!"unsupported format string passed to {v.kindName}.__format__")

def Entry.line (age : Age) (e : Entry) : Except Fault String := do
  let cell ← nameCell e.name
  pure s!"{age.icon} {cell} {Text.padLeft 4 (toString e.days)}d  {e.path}"

def oldestFirst (es : List Entry) : List Entry := es.mergeSort fun a b => b.days ≤ a.days

def Scan.linesOf (s : Scan) (age : Age) : Except Fault (List String) :=
  (oldestFirst (s.get age)).mapM (Entry.line age)

def Scan.summary (s : Scan) : String :=
  s!"\n🟢 Fresh: {s.fresh.length}  🟡 Warning: {s.warning.length}  🔴 Stale: {s.stale.length}\n"

def Scan.report (s : Scan) : Except Fault String := do
  let stale ← s.linesOf .stale
  let warning ← s.linesOf .warning
  let fresh ← s.linesOf .fresh
  pure (Text.join "\n" (s.summary :: (stale ++ warning ++ fresh)))

def jsonName : Value → Except Fault Value
  | .date _ => throw (.wrongKind "Object of type date is not JSON serializable")
  | .moment _ => throw (.wrongKind "Object of type datetime is not JSON serializable")
  | v => pure v

def record (es : List (String × Value)) : Value := .map (es.map fun e => (.text e.1, e.2))

def entryRecord (e : Entry) : Except Fault Value := do
  let name ← jsonName e.name
  name.checkWritable
  pure (record [ ("name", name), ("path", .text e.path), ("last_verified", .text e.lastVerified),
    ("age_days", .int e.days) ])

def Scan.json (s : Scan) : Except Fault String := do
  let ages : List Age := [.fresh, .warning, .stale]
  let counts := ages.map fun a => (a.name, Value.int (s.get a).length)
  let total := ages.foldl (fun n a => n + (s.get a).length) 0
  let parts ← ages.mapM fun a => do
    let entries ← (s.get a).mapM entryRecord
    pure (a.name, Value.list entries)
  pure (Json.indented 0 (record
    [("summary", record (counts ++ [("total", .int total)])), ("components", record parts)]))

def command (words : List String) : Run Unit := do
  let args ← CommandLine.read
    [ { Argument.positional "repo_path" with required := false, arity := .atMostOne },
      .option "--json", { Argument.option "--output" with flags := ["-o", "--output"] } ]
    words
  let base ← Run.resolve (Path.ofText (args.textOf "repo_path" "."))
  let s ← scan base
  let report ← Run.ofExcept s.report
  let output := args.textOf "--output" ""
  if output ≠ "" then Run.writeText (Path.ofText output) report else Run.print report
  let json := args.textOf "--json" ""
  if json ≠ "" then Run.writeText (Path.ofText json) (← Run.ofExcept s.json)
  throw (.exit (if s.stale.isEmpty then 0 else 1))

end AssetCatalog.Freshness
