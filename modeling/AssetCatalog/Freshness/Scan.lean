import AssetCatalog.Asset.Discovery
import AssetCatalog.Freshness.Stamp
import AssetCatalog.Metadata.Validation

/-! Filing the assets of a catalogue by how long ago they were verified. -/

namespace AssetCatalog.Freshness

inductive Age where
  | fresh
  | warning
  | stale
deriving DecidableEq, Repr, Inhabited

def warningDay : Int := 270

def staleDay : Int := 360

def Age.ofDays (days : Int) : Age :=
  if days < warningDay then .fresh else if days < staleDay then .warning else .stale

def Age.name : Age → String
  | .fresh => "fresh"
  | .warning => "warning"
  | .stale => "stale"

def Age.icon : Age → String
  | .fresh => "🟢"
  | .warning => "🟡"
  | .stale => "🔴"

structure Entry where
  name : Value
  path : String
  lastVerified : String
  days : Int
deriving Inhabited

def Entry.unknown (path : String) (name : Value := .text "unknown") : Entry :=
  { name, path, lastVerified := "unknown", days := 0 }

structure Scan where
  fresh : List Entry := []
  warning : List Entry := []
  stale : List Entry := []
deriving Inhabited

namespace Scan

def get (s : Scan) : Age → List Entry
  | .fresh => s.fresh
  | .warning => s.warning
  | .stale => s.stale

def add (s : Scan) (age : Age) (e : Entry) : Scan :=
  match age with
  | .fresh => { s with fresh := s.fresh ++ [e] }
  | .warning => { s with warning := s.warning ++ [e] }
  | .stale => { s with stale := s.stale ++ [e] }

end Scan

def dayText (d : Date) : String :=
  toString d.year ++ "-" ++ zeroPadded 2 d.month ++ "-" ++ zeroPadded 2 d.day

def verdict (now : Int) (path : String) (v : Value) : Except Fault (Age × Entry) := do
  let stamp ← v.need "lastVerified"
  let t ← parseMoment stamp.plain
  let days := Metadata.daysBetween t.instant now
  let name ← v.get "name"
  pure (.ofDays days,
    { name := name.getD (.text "unknown"), path, lastVerified := dayText t.date, days })

def tellsStamp (v : Value) : Except Fault Bool :=
  if v.truthy then v.mentions "lastVerified" else pure false

def judge (file : Path) (path : String) : Run (Age × Entry) := do
  let v ← Metadata.loadYaml file
  if ← Run.ofExcept (tellsStamp v) then
    Run.ofExcept (verdict (← read).now.instant path v)
  else
    Run.printError s!"Warning: Missing lastVerified in {file.text}, marking as stale"
    let name ← Run.ofExcept (v.get "name")
    pure (.stale, .unknown path (name.getD (.text "unknown")))

def judgeAsset (base : Path) (path : String) : Run (Age × Entry) := do
  let file := (base.below path).below Metadata.fileName
  tryCatch (judge file path) fun _ => do
    Run.printError s!"Error processing {file.text}"
    Run.printError "Marking as stale"
    pure (.stale, .unknown path)

def scan (base : Path) : Run Scan := do
  let paths ← Asset.allWithMetadata base
  let judged ← paths.mapM (judgeAsset base)
  pure (judged.foldl (fun s (age, e) => s.add age e) {})

end AssetCatalog.Freshness
