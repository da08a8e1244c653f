/-! The ways in which an operation can fail. -/

namespace AssetCatalog

/-- Why an operation failed. A cause that carries a message is a rule of this library; the others
come from a value or a file that does not fit the step applied to it. -/
inductive Fault where
  | invalid (message : String)
  | outOfRange
  | tooLarge
  | tooDeep
  | schema (message : String)
  | failed (message : String)
  | argument (message : String)
  | usage (message : String)
  | checks (message : String)
  | compilation (message : String)
  | flow (message : String)
  | load (message : String)
  | command (words : List String) (status : Int)
  | exit (status : Int)
  /-- A file does not exist; the message is there where this library looked for it. -/
  | noFile (message : Option String)
  | notDirectory
  | isDirectory
  | fileExists
  | notText (message : String)
  | yaml
  | source
  | json
  | toml
  | pattern
  | wrongKind (message : String := "")
  | noMember (message : String := "")
  | noKey
  | noIndex
  | undefinedName
  | noTemplate
deriving DecidableEq, Repr, Inhabited

namespace Fault

def message : Fault → String
  | .invalid m | .schema m | .failed m | .argument m | .usage m | .checks m | .compilation m
  | .flow m | .load m | .notText m | .wrongKind m | .noMember m => m
  | .noFile m => m.getD ""
  | .exit n => toString n
  | _ => ""

def isSystem : Fault → Bool
  | .noFile none | .notDirectory | .isDirectory | .fileExists => true
  | _ => false

/-- A line on a failure: a title and the message. What the file system says is left out. -/
def titled (title : String) (f : Fault) : String :=
  if f.isSystem then title else title ++ ": " ++ f.message

def isInvalid : Fault → Bool
  | .invalid _ | .outOfRange | .notText _ | .json => true
  | _ => false

end Fault

end AssetCatalog
